import UdtBoost.SendPath

/-! The other half of the decomposition: what received packets, timers and the user's calls
do to the view, function by function, and so for every event. -/
namespace UdtBoost

/-- What `handle_options` reads, without what it does: the SACK blocks, and the memory with
the options in host order. -/
def optionWalk : Nat → List UChar → Nat → Nat → List PairSeq × List UChar
  | 0, mem, _, _ => ([], mem)
  | fuel + 1, mem, ptr, remainLen =>
      if remainLen < UdtOption.sizeofOption then ([], mem)
      else if mem.getD ptr 0 = UdtOption.TCPOPT_SACK then
        let n := UdtOptionSack.size (mem.getD (ptr + 1) 0)
        let consumed := UdtOption.sizeofOption + UdtOption.sizeofPair * n
        if mem.length < ptr + consumed then ([], mem)
        else
          let mem := UdtOptionSack.ntoh mem ptr n
          let rest := optionWalk fuel mem (ptr + consumed) (remainLen - consumed)
          ((List.range n).map (UdtOptionSack.pairSeq mem ptr) ++ rest.1, rest.2)
      else if mem.getD ptr 0 = UdtOption.TCPOPT_CWND then
        if mem.length < ptr + UdtOption.sizeofCwnd then ([], mem)
        else
          optionWalk fuel
            (store32 mem (ptr + UdtOption.sizeofOption)
              (ntohl (load32 mem (ptr + UdtOption.sizeofOption))))
            (ptr + UdtOption.sizeofCwnd) (remainLen - UdtOption.sizeofCwnd)
      else if mem.getD ptr 0 = UdtOption.TCPOPT_NOP then
        optionWalk fuel mem (ptr + UdtOption.sizeofOption) (remainLen - UdtOption.sizeofOption)
      else ([], mem)

/-- The option walk of a packet: its length bounds the number of options. -/
def UdtPacket.options (p : UdtPacket) : List PairSeq × List UChar :=
  optionWalk (p.hdr.off.toNat - UdtHdr.size) p.mem 0 (p.hdr.off.toNat - UdtHdr.size)

namespace Endpoint

variable {C : View → Act → Prop}

theorem post_path (s : Endpoint) (c : Completion) (silent : c.sentBytes = [] ∧ c.isReceived = false) :
    ViewPath OnlyTau s.view (s.post c).view :=
  (Step.post (v := s.view) silent).path

theorem dispatchRecvOperation_path (s : Endpoint) (op : RecvOperation) :
    ViewPath OnlyTau s.view (s.dispatchRecvOperation op).2.view := by
  have posted := @Step.dispatch s.view op
  have discarded := Step.discard (v := s.view) (n := op.buf.size.toNat)
  rw [dispatchRecvOperation]
  change _ → Step s.view .tau { s.view with rcvBuf.toUdtBuf := _ } at discarded
  have buf : s.view.rcvBuf = s.sk.rcvBuf := rfl
  rw [buf] at posted discarded
  generalize s.sk.rcvBuf.toUdtBuf.copy op.buf.size.toNat true = copied at posted discarded ⊢
  obtain ⟨bytes, rest⟩ := copied
  dsimp only at posted discarded ⊢
  split
  · exact posted.path
  · next nothing => exact (discarded (not_not.mp (not_or.mp nothing).1)).path

theorem recvOps_path (s : Endpoint) (ops : List RecvOperation) :
    ViewPath OnlyTau s.view ({ s with sk.recvOps := ops } : Endpoint).view :=
  (Step.recvOps (v := s.view)).path

theorem recvDataLoop_path (s : Endpoint) (ops : List RecvOperation) :
    ViewPath OnlyTau s.view (s.recvDataLoop ops).2.view := by
  induction ops generalizing s with
  | nil => exact s.recvOps_path []
  | cons op rest ih =>
      rw [recvDataLoop]
      split
      · exact s.recvOps_path (op :: rest)
      · have path := s.dispatchRecvOperation_path op
        generalize s.dispatchRecvOperation op = result at path ⊢
        obtain ⟨done, s'⟩ := result
        cases done with
        | true => exact path.trans (ih s')
        | false => exact path.trans (s'.recvOps_path (op :: rest))

theorem recvData_path (s : Endpoint) : ViewPath OnlyTau s.view s.recvData.view := by
  unfold recvData
  split
  · exact .refl _
  · have path := s.recvDataLoop_path s.sk.recvOps
    generalize s.recvDataLoop s.sk.recvOps = result at path ⊢
    obtain ⟨output, s'⟩ := result
    dsimp only
    split
    · exact path.trans s'.output_path
    · exact path

theorem onReadable_path (s : Endpoint) : ViewPath OnlyTau s.view s.onReadable.view := by
  unfold onReadable
  split
  · exact s.recvData_path
  · exact .refl _

theorem delayedLoop_path (s : Endpoint) (ops : List RecvOperation) :
    ViewPath OnlyTau s.view (s.delayedLoop ops).view := by
  induction ops generalizing s with
  | nil => exact s.recvOps_path []
  | cons op rest ih =>
      rw [delayedLoop]
      have path := s.dispatchRecvOperation_path op
      generalize s.dispatchRecvOperation op = result at path ⊢
      obtain ⟨done, s'⟩ := result
      cases done with
      | true => exact path.trans (ih s')
      | false => exact path.trans (s'.recvOps_path (op :: rest))

theorem handleDelayRecvOperation_path (s : Endpoint) (aborted : Bool) :
    ViewPath OnlyTau s.view (s.handleDelayRecvOperation aborted).view := by
  unfold handleDelayRecvOperation
  split
  · exact .refl _
  · dsimp only
    split
    · exact .refl _
    · exact delayedLoop_path { s with sk.delayWaits := s.sk.delayWaits - 1 } _

theorem onWritable_path (s : Endpoint) : ViewPath OnlyTau s.view s.onWritable.view := by
  unfold onWritable
  split
  · have path := s.consumePendingData_path
    generalize s.consumePendingData = result at path ⊢
    obtain ⟨consumed, s'⟩ := result
    dsimp only
    split
    · exact path.trans s'.output_path
    · exact path
  · exact .refl _

theorem cancel_path (s : Endpoint) : ViewPath OnlyTau s.view s.cancel.view :=
  (Step.cancel (v := s.view)).path

/-- The completions of a broken connection carry no bytes. -/
theorem postDisconnected_path (s : Endpoint) (ops : List SendOperation) :
    ViewPath OnlyTau s.view
      (ops.foldl (fun s op => s.post (.sent op .disconnected 0)) s).view := by
  induction ops generalizing s with
  | nil => exact .refl _
  | cons op ops ih =>
      exact (s.post_path (.sent op .disconnected 0) ⟨rfl, rfl⟩).trans (ih _)

theorem postHandlers_path (s : Endpoint) (e : UdtError) :
    ViewPath OnlyTau s.view (s.postHandlers e).view := by
  unfold postHandlers
  rcases s.sk.connectHandler with _ | h <;> rcases s.sk.acceptHandler with _ | h' <;> dsimp only
  · split
    · exact s.post_path _ ⟨rfl, rfl⟩
    · exact .refl _
  all_goals
    split
    · exact (s.post_path _ ⟨rfl, rfl⟩).trans (post_path _ _ ⟨rfl, rfl⟩)
    · exact s.post_path _ ⟨rfl, rfl⟩

theorem onDisconnected_path (s : Endpoint) : ViewPath OnlyTau s.view s.onDisconnected.view := by
  unfold onDisconnected
  split
  · exact (((s.postDisconnected_path s.sk.sendOps).trans (recvData_path _)).trans
      (postHandlers_path _ _)).trans (cancel_path _)
  · exact .refl _

theorem drop_path (s : Endpoint) (e : UdtError) : ViewPath OnlyTau s.view (s.drop e).view := by
  unfold drop
  dsimp only
  have failed : ViewPath OnlyTau s.view
      (if e ≠ .succeed then { s with cb.lastError := e } else s : Endpoint).view := by
    split
    · exact (Step.error (v := s.view)).path
    · exact .refl _
  generalize (if e ≠ .succeed then { s with cb.lastError := e } else s : Endpoint) = s₁
    at failed ⊢
  exact (failed.trans s₁.onDisconnected_path).trans (Step.closed (v := s₁.onDisconnected.view)).path

theorem xmitTimer_view (s : Endpoint) (rtt : Half) : (s.xmitTimer rtt).view = s.view := by
  unfold xmitTimer
  dsimp only
  split <;> rfl

theorem updateRtt_view (s : Endpoint) (ack : Word) : (s.updateRtt ack).view = s.view := by
  unfold updateRtt
  split
  · exact s.xmitTimer_view _
  · rfl

theorem resetRexmtTimer_view (s : Endpoint) :
    ({ s with cb := s.cb.resetRexmtTimer } : Endpoint).view = s.view := by
  unfold UdtCb.resetRexmtTimer
  split
  · rfl
  · split <;> rfl

theorem updateSndWnd_view (s : Endpoint) (win : Word) :
    ({ s with cb := s.cb.updateSndWnd win } : Endpoint).view = s.view := by
  unfold UdtCb.updateSndWnd
  dsimp only
  split <;> rfl

theorem updateSndUna_view (s : Endpoint) (ack : Word) :
    ({ s with cb := s.cb.updateSndUna ack } : Endpoint).view = { s.view with
      sndUna := ack
      sndNxt := if seqLt s.cb.sndNxt ack then ack else s.cb.sndNxt } := by
  unfold UdtCb.updateSndUna UdtCb.updateSndFack
  by_cases behind : seqLt s.cb.sndNxt ack <;> simp only [behind, if_true, if_false] <;>
    split <;> rfl

theorem totalLen_unflagged (ps : List UdtPacket) :
    totalLen (ps.map UdtPacket.unflagged) = totalLen ps := by
  simp [totalLen, Function.comp_def, UdtPacket.unflagged]

/-- What is left of `m_retrans_data` once a packet is gone. -/
def retransLeft (data : Word) (p : UdtPacket) : Word :=
  if hasRexmt p.hdr.flags then data - p.hdr.len.setWidth 32 else data

/-- `m_retrans_data` at each call of `drop_snd_pkt` when packets leave one after the other. -/
def dropLog (data : Word) : List UdtPacket → List (Word × UdtPacket)
  | [] => []
  | p :: ps => (data, p) :: dropLog (retransLeft data p) ps

theorem dropSndPkt_eq (s : Endpoint) (front back : List UdtPacket) (p : UdtPacket) :
    s.dropSndPkt front p back =
      { s with
        cb.retransData := retransLeft s.cb.retransData p
        sk.sndBuf := s.sk.sndBuf.drop front p back
        dropped := s.dropped ++ [(s.cb.retransData, p)] } := by
  unfold dropSndPkt retransLeft
  dsimp only
  split <;> rfl

/-- The packets before the acknowledgement leave the buffer from its front. -/
theorem dropAckedLoop_spec (s : Endpoint) (ack : Word) (pkts : List UdtPacket)
    (queue : s.sk.sndBuf.pkts = pkts) :
    ∃ gone rest, pkts = gone ++ rest ∧ (∀ q ∈ gone, seqLt q.hdr.seq ack) ∧
      (∀ q, rest.head? = some q → seqGe q.hdr.seq ack) ∧
      s.dropAckedLoop ack pkts =
        { s with
          cb.retransData := gone.foldl retransLeft s.cb.retransData
          sk.sndBuf := s.sk.sndBuf.dropFront gone rest
          dropped := s.dropped ++ dropLog s.cb.retransData gone } := by
  induction pkts generalizing s with
  | nil =>
      refine ⟨[], [], rfl, by simp, by simp, ?_⟩
      rw [dropAckedLoop, dropLog, List.append_nil, List.foldl_nil, UdtBuf.dropFront, totalLen_nil,
        ← queue]
      simp
  | cons p pkts ih =>
      rw [dropAckedLoop]
      by_cases done : seqGe p.hdr.seq ack
      case pos =>
        refine ⟨[], p :: pkts, rfl, by simp, ?_, ?_⟩
        · intro q head
          obtain rfl : p = q := by simpa using head
          exact done
        · rw [if_pos done, dropLog, List.append_nil, List.foldl_nil, UdtBuf.dropFront, totalLen_nil,
            ← queue]
          simp
      case neg =>
        rw [if_neg done]
        obtain ⟨gone, rest, split, below, kept, result⟩ := ih (s.dropSndPkt [] p pkts) rfl
        refine ⟨p :: gone, rest, by rw [split, List.cons_append], ?_, kept, ?_⟩
        · exact List.forall_mem_cons.mpr ⟨not_not.mp done, below⟩
        · have cc : s.sk.sndBuf.cc - p.hdr.len.setWidth 32 - BitVec.ofNat 32 (totalLen gone) =
              s.sk.sndBuf.cc - BitVec.ofNat 32 (totalLen (p :: gone)) := by
            rw [totalLen_cons]
            bv_omega
          rw [result, dropSndPkt_eq, dropLog, List.foldl_cons]
          simp only [UdtBuf.drop, UdtBuf.dropFront, cc, List.append_assoc, List.singleton_append]

theorem dropAckedData_path (s : Endpoint) (p : UdtPacket) (above : seqGt p.hdr.ack s.cb.sndUna)
    (sent : seqLe p.hdr.ack s.cb.sndMax) (ok : C s.view (.ack p)) :
    ViewPath C s.view (s.dropAckedData p.hdr.ack).view := by
  obtain ⟨dropped, rest, split, below, kept, result⟩ :=
    s.dropAckedLoop_spec p.hdr.ack s.sk.sndBuf.pkts rfl
  have queue : s.view.sndBuf.pkts =
      dropped.map UdtPacket.unflagged ++ rest.map UdtPacket.unflagged := by
    rw [← List.map_append, ← split]
    rfl
  have low : ∀ q ∈ dropped.map UdtPacket.unflagged, seqLt q.hdr.seq p.hdr.ack := by
    intro q member
    obtain ⟨x, inside, rfl⟩ := List.mem_map.mp member
    exact below x inside
  have high : ∀ q, (rest.map UdtPacket.unflagged).head? = some q → seqGe q.hdr.seq p.hdr.ack := by
    intro q head
    rw [List.head?_map, Option.map_eq_some_iff] at head
    obtain ⟨x, first, rfl⟩ := head
    exact kept x first
  have step := Step.ack (v := s.view) above sent queue low high
  have buf : (s.sk.sndBuf.dropFront dropped rest).unflagged = s.view.sndBuf.dropFront
      (dropped.map UdtPacket.unflagged) (rest.map UdtPacket.unflagged) := by
    simp only [view, Conn.core, UdtBuf.unflagged, UdtBuf.dropFront, totalLen_unflagged]
  rw [← buf] at step
  have loop : (s.dropAckedLoop p.hdr.ack s.sk.sndBuf.pkts).view =
      { s.view with sndBuf := (s.sk.sndBuf.dropFront dropped rest).unflagged } := by
    rw [result]
    rfl
  rw [dropAckedData]
  generalize s.dropAckedLoop p.hdr.ack s.sk.sndBuf.pkts = x at loop ⊢
  have nxt : x.cb.sndNxt = s.cb.sndNxt := congrArg (fun v : View => v.sndNxt) loop
  have after := updateSndUna_view x p.hdr.ack
  rw [nxt, loop] at after
  rw [after]
  exact .single ok step

theorem TCP_REASS_path (s : Endpoint) (p : UdtPacket) (ok : C s.view (.store p)) :
    ViewPath C s.view (s.TCP_REASS p).view := by
  rcases s.TCP_REASS_spec p with ⟨_, flags, sentfin, consumed, result⟩ |
    ⟨below, above, run, kept, stored⟩
  · have same : (s.TCP_REASS p).view = s.view := by
      rw [result]
      change { s.view with
        sentfin := flags.sentfin, packetConsumed := flags.packetConsumed } = s.view
      rw [sentfin, consumed]
      rfl
    rw [same]
    exact .refl _
  · obtain ⟨flags, sentfin, consumed, result⟩ := stored.result
    have after : (s.TCP_REASS p).view = { s.view with
        rcvBuf := s.sk.rcvBuf.take run kept
        rcvNxt := s.cb.rcvNxt + BitVec.ofNat 32 (totalLen run)
        packetConsumed := true } := by
      rw [result]
      change { s.view with
        sentfin := flags.sentfin
        packetConsumed := flags.packetConsumed
        rcvBuf := s.sk.rcvBuf.take run kept
        rcvNxt := s.cb.rcvNxt + BitVec.ofNat 32 (totalLen run) } = _
      rw [sentfin, consumed]
      rfl
    rw [after]
    have stuck : ∀ x, kept.head? = some x →
        x.hdr.seq = s.view.rcvNxt + BitVec.ofNat 32 (totalLen run) →
        (s.view.rcvBuf.take run kept).acc.toNat < x.hdr.len.toNat := by
      intro x head next
      have full := stored.stuck
      cases kept with
      | nil => simp at head
      | cons y kept =>
          obtain rfl : y = x := by simpa using head
          exact full next
    exact .single ok (Step.store (v := s.view) stored.queue stored.before stored.after stored.split
      stored.contiguous stored.room stuck)

theorem handleSyn_view (s : Endpoint) (p : UdtPacket) :
    (s.handleSyn p).2.2.view =
      if s.cb.state = .listen ∨ s.cb.state = .synSent ∨ s.cb.state = .synReceived then
        { s.view with
          iss := if s.cb.state = .listen then sIss else s.cb.iss
          sndUna := if s.cb.state = .listen then sIss else s.cb.sndUna
          sndNxt := if s.cb.state = .listen then sIss else s.cb.sndNxt
          sndMax := if s.cb.state = .listen then sIss else s.cb.sndMax
          irs := p.hdr.seq + 1
          rcvNxt := p.hdr.seq + 1
          rcvAdv := p.hdr.seq + 1
          state := .synReceived
          synAccepted := s.synAccepted ++ [p.hdr.seq] }
      else s.view := by
  unfold handleSyn
  dsimp only
  generalize state : s.cb.state = q
  cases q <;> simp [view, Conn.core, state, UdtCb.tcpSendseqinit, UdtCb.tcpRcvseqinit]

theorem handleSyn_path (s : Endpoint) (p : UdtPacket) (ok : C s.view (.syn p)) :
    ViewPath C s.view (s.handleSyn p).2.2.view := by
  rw [handleSyn_view]
  split
  · next state => exact .single ok (Step.syn (v := s.view) state)
  · exact .refl _

theorem onConnected_view (s : Endpoint) :
    ∃ c, (∀ x : Completion, x ∈ c → x.sentBytes = [] ∧ x.isReceived = false) ∧
      s.onConnected.view = { s.view with
        connected := true
        sndBuf := if s.sk.nextLayer then s.view.sndBuf.setInitSeq s.cb.sndNxt else s.view.sndBuf
        posted := s.posted ++ c } := by
  unfold onConnected
  cases alive : s.sk.nextLayer with
  | false => exact ⟨[], by simp, by simp [alive, view, Conn.core]⟩
  | true =>
      rcases connect : s.sk.connectHandler with _ | h
      · rcases accept : s.sk.acceptHandler with _ | h
        · exact ⟨[], by simp, by simp [alive, connect, accept, view, Conn.core, UdtBuf.setInitSeq, UdtBuf.unflagged]⟩
        · exact ⟨[.accepted h s.cb.lastError], by simp [Completion.sentBytes, Completion.isReceived],
            by simp [alive, connect, accept, view, Conn.core, UdtBuf.setInitSeq, UdtBuf.unflagged, post]⟩
      · exact ⟨[.connected h s.cb.lastError], by simp [Completion.sentBytes, Completion.isReceived],
          by simp [alive, connect, view, Conn.core, UdtBuf.setInitSeq, UdtBuf.unflagged, post]⟩

theorem ackFin_view (s : Endpoint) (handshake : s.cb.state ≠ .synSent ∧ s.cb.state ≠ .synReceived) :
    s.ackFin.view = { s.view with state := s.cb.state.acked s.cb.flags.sentfin } := by
  unfold ackFin
  cases state : s.cb.state <;> cases sentfin : s.cb.flags.sentfin <;>
    simp_all [view, Conn.core, TcpState.acked, UdtCb.canceltimers]

/-- The two halves of `update_ack_state` never act on the same state. -/
theorem updateAckState_view (s : Endpoint) :
    ∃ c, (∀ x : Completion, x ∈ c → x.sentBytes = [] ∧ x.isReceived = false) ∧
      s.updateAckState.view = { s.view with
        state := s.cb.state.acked s.cb.flags.sentfin
        connected := s.connected || s.cb.state == .synReceived
        sndBuf := if s.sk.nextLayer ∧ s.cb.state = .synReceived
          then s.view.sndBuf.setInitSeq s.cb.sndNxt else s.view.sndBuf
        posted := s.posted ++ c } := by
  rw [updateAckState, ackHandshake]
  cases state : s.cb.state with
  | synReceived =>
      have view₂ : ({ s with cb.state := .established } : Endpoint).timeHandshake.view =
          { s.view with state := .established } := by
        rw [timeHandshake]
        split
        · rw [xmitTimer_view]
          rfl
        · rfl
      dsimp only
      generalize ({ s with cb.state := .established } : Endpoint).timeHandshake = s₂ at view₂ ⊢
      obtain ⟨c, silent, connected⟩ := s₂.onConnected_view
      have established : s₂.onConnected.cb.state = .established := by
        have keep : s₂.onConnected.cb.state = s₂.view.state :=
          congrArg (fun v : View => v.state) connected
        rw [keep, view₂]
      have nxt : s₂.cb.sndNxt = s.cb.sndNxt := congrArg (fun v : View => v.sndNxt) view₂
      have alive : s₂.sk.nextLayer = s.sk.nextLayer := congrArg (fun v : View => v.nextLayer) view₂
      have posted : s₂.posted = s.posted := congrArg (fun v : View => v.posted) view₂
      refine ⟨c, silent, ?_⟩
      rw [ackFin_view _ (by simp [established]), established, connected, nxt, alive, posted, view₂]
      simp [TcpState.acked]
  | synSent =>
      refine ⟨[], by simp, ?_⟩
      simp [ackFin, view, Conn.core, TcpState.acked]
  | _ =>
      refine ⟨[], by simp, ?_⟩
      dsimp only
      rw [ackFin_view s (by simp [state]), state]
      simp [view, Conn.core]

theorem updateAckState_path (s : Endpoint) (p : UdtPacket) (all : s.cb.sndMax = p.hdr.ack)
    (ok : C s.view (.ackAll p)) : ViewPath C s.view s.updateAckState.view := by
  obtain ⟨c, silent, view⟩ := s.updateAckState_view
  rw [view]
  exact .single ok (Step.ackAll (v := s.view) all silent)

theorem handlePacketLost_view (s : Endpoint) : s.handlePacketLost.view = s.view := by
  unfold handlePacketLost UdtCb.decrSndCwnd
  dsimp only
  split <;> rfl

theorem validateFirstPkt_view (s : Endpoint) : s.validateFirstPkt.view = s.view := by
  unfold validateFirstPkt
  cases queue : s.sk.sndBuf.pkts with
  | nil => rfl
  | cons p rest =>
      dsimp only
      split <;> simp [view, Conn.core, UdtBuf.unflagged, queue, UdtPacket.unflagged]

theorem clearFlagsLoop_unflagged (sndMax : Word) (pkts : List UdtPacket) :
    (clearFlagsLoop sndMax pkts).map UdtPacket.unflagged = pkts.map UdtPacket.unflagged := by
  induction pkts with
  | nil => rfl
  | cons p pkts ih =>
      rw [clearFlagsLoop]
      split
      · rfl
      · rw [List.map_cons, List.map_cons, ih]
        rfl

theorem clearSndBufFlags_view (s : Endpoint) : s.clearSndBufFlags.view = s.view := by
  simp only [clearSndBufFlags, view, Conn.core, UdtBuf.unflagged, clearFlagsLoop_unflagged]

theorem dropSndPkt_path (s : Endpoint) (p q : UdtPacket) (block : PairSeq)
    (front back : List UdtPacket) (queue : s.sk.sndBuf.pkts = front ++ q :: back)
    (start : seqGe q.hdr.seq block.1) (stop : seqLe q.endSeq block.2)
    (ok : C s.view (.sack p block)) :
    ViewPath C s.view (s.dropSndPkt front q back).view := by
  have split : s.view.sndBuf.pkts = front.map UdtPacket.unflagged ++
      q.unflagged :: back.map UdtPacket.unflagged := by
    rw [← List.map_cons, ← List.map_append, ← queue]
    rfl
  have step := Step.sack (v := s.view) (p := p) (q := q.unflagged) split start stop
  have buf : (s.sk.sndBuf.drop front q back).unflagged = s.view.sndBuf.drop
      (front.map UdtPacket.unflagged) q.unflagged (back.map UdtPacket.unflagged) := by
    simp [view, Conn.core, UdtBuf.unflagged, UdtBuf.drop, UdtPacket.unflagged]
  rw [← buf] at step
  have after : (s.dropSndPkt front q back).view =
      { s.view with sndBuf := (s.sk.sndBuf.drop front q back).unflagged } := by
    unfold dropSndPkt
    dsimp only
    split <;> rfl
  rw [after]
  exact .single ok step

theorem dropSndPkt_pkts (s : Endpoint) (front back : List UdtPacket) (q : UdtPacket) :
    (s.dropSndPkt front q back).sk.sndBuf.pkts = front ++ back := by
  unfold dropSndPkt
  dsimp only
  split <;> rfl

/-- The iterator's two sides stay the buffer's packets while a block removes some of them. -/
theorem sackBlock_path (s : Endpoint) (p : UdtPacket) (block : PairSeq)
    (front back : List UdtPacket) (queue : s.sk.sndBuf.pkts = front ++ back)
    (ok : ∀ v, C v (.sack p block)) :
    ∃ front' back' s', s.sackBlock block.1 block.2 front back = (front', back', s') ∧
      s'.sk.sndBuf.pkts = front' ++ back' ∧ ViewPath C s.view s'.view := by
  induction back generalizing s front with
  | nil => exact ⟨front, [], s, rfl, queue, .refl _⟩
  | cons q back ih =>
      rw [sackBlock]
      by_cases below : seqLt q.hdr.seq block.1
      case pos =>
        rw [if_pos below]
        exact ih s (front ++ [q]) (by rw [queue, List.append_assoc, List.singleton_append])
      case neg =>
        rw [if_neg below]
        by_cases covered : seqLe q.endSeq block.2
        case pos =>
          rw [if_pos covered]
          have dropped := s.dropSndPkt_path p q block front back queue below covered (ok _)
          obtain ⟨front', back', s', result, queue', path⟩ :=
            ih (s.dropSndPkt front q back) front (s.dropSndPkt_pkts front back q)
          exact ⟨front', back', s', result, queue', dropped.trans path⟩
        case neg => exact ⟨front, q :: back, s, by rw [if_neg covered], queue, .refl _⟩

theorem sackBlocks_path (s : Endpoint) (p : UdtPacket) (blocks : List PairSeq)
    (front back : List UdtPacket) (queue : s.sk.sndBuf.pkts = front ++ back)
    (ok : ∀ v, ∀ block ∈ blocks, C v (.sack p block)) :
    ViewPath C s.view (s.sackBlocks front back blocks).view := by
  induction blocks generalizing s front back with
  | nil => exact .refl _
  | cons block blocks ih =>
      obtain ⟨front', back', s', result, queue', path⟩ :=
        s.sackBlock_path p block front back queue fun v => ok v block List.mem_cons_self
      rw [sackBlocks, result]
      exact path.trans
        (ih s' front' back' queue' fun v b member => ok v b (List.mem_cons_of_mem _ member))

theorem handleOptionSack_path (s : Endpoint) (p : UdtPacket) (blocks : List PairSeq)
    (ok : ∀ v, ∀ block ∈ blocks, C v (.sack p block)) :
    ViewPath C s.view (s.handleOptionSack blocks).view := by
  cases blocks with
  | nil => exact .refl _
  | cons first blocks =>
      have fack : ({ s with cb := s.cb.updateSndFack first.2 } : Endpoint).view = s.view := by
        unfold UdtCb.updateSndFack
        split <;> rfl
      have path := sackBlocks_path { s with cb := s.cb.updateSndFack first.2 } p
        (first :: blocks).reverse [] s.sk.sndBuf.pkts rfl
        fun v b member => ok v b (List.mem_reverse.mp member)
      rw [fack] at path
      exact path

theorem handleOptionCwnd_view (s : Endpoint) (cwnd : Word) :
    (s.handleOptionCwnd cwnd).view = s.view := rfl

theorem handleOptionsLoop_path (fuel : Nat) (s : Endpoint) (p : UdtPacket) (mem : List UChar)
    (ptr remainLen : Nat)
    (ok : ∀ v, ∀ block ∈ (optionWalk fuel mem ptr remainLen).1, C v (.sack p block)) :
    ViewPath C s.view (s.handleOptionsLoop fuel mem ptr remainLen).2.view ∧
      (s.handleOptionsLoop fuel mem ptr remainLen).1 = (optionWalk fuel mem ptr remainLen).2 := by
  induction fuel generalizing s mem ptr remainLen with
  | zero => exact ⟨.refl _, rfl⟩
  | succ fuel ih =>
      rw [optionWalk] at ok ⊢
      rw [handleOptionsLoop]
      dsimp only
      by_cases short : remainLen < UdtOption.sizeofOption
      · rw [if_pos short, if_pos short]
        exact ⟨.refl _, rfl⟩
      rw [if_neg short] at ok ⊢
      rw [if_neg short]
      by_cases sack : mem.getD ptr 0 = UdtOption.TCPOPT_SACK
      · rw [if_pos sack] at ok ⊢
        rw [if_pos sack]
        dsimp only at ok ⊢
        split
        · exact ⟨.refl _, rfl⟩
        · next inside =>
            rw [if_neg inside] at ok
            obtain ⟨path, same⟩ := ih _ _ _ _ fun v b member =>
              ok v b (List.mem_append_right _ member)
            exact ⟨(handleOptionSack_path s p _ fun v b member =>
              ok v b (List.mem_append_left _ member)).trans path, same⟩
      rw [if_neg sack] at ok ⊢
      rw [if_neg sack]
      by_cases cwnd : mem.getD ptr 0 = UdtOption.TCPOPT_CWND
      · rw [if_pos cwnd] at ok ⊢
        rw [if_pos cwnd]
        split
        · exact ⟨.refl _, rfl⟩
        · next inside =>
            rw [if_neg inside] at ok
            have path := ih (s.handleOptionCwnd
              (ntohl (load32 mem (ptr + UdtOption.sizeofOption)))) _ _ _ ok
            rw [handleOptionCwnd_view] at path
            exact path
      rw [if_neg cwnd] at ok ⊢
      rw [if_neg cwnd]
      split
      · next nop =>
          rw [if_pos nop] at ok
          exact ih s _ _ _ ok
      · exact ⟨.refl _, rfl⟩

theorem handleOptions_path (s : Endpoint) (p : UdtPacket)
    (sack : ∀ v, ∀ block ∈ p.options.1, C v (.sack p block))
    (rewrite : ∀ v, C v (.rewrite p p.options.2)) :
    ViewPath C s.view (s.handleOptions p).view := by
  obtain ⟨path, same⟩ := handleOptionsLoop_path (p.hdr.off.toNat - UdtHdr.size) s p p.mem 0
    (p.hdr.off.toNat - UdtHdr.size) sack
  rw [handleOptions]
  dsimp only
  generalize s.handleOptionsLoop (p.hdr.off.toNat - UdtHdr.size) p.mem 0
    (p.hdr.off.toNat - UdtHdr.size) = result at path same ⊢
  obtain ⟨mem, s'⟩ := result
  dsimp only at path same ⊢
  rw [same]
  exact path.trans (.single (rewrite _) (Step.rewrite (v := s'.view)))

/-- Options never move the sequence numbers of the sender. -/
theorem handleOptions_seqs (s : Endpoint) (p : UdtPacket) :
    (s.handleOptions p).cb.sndUna = s.cb.sndUna ∧ (s.handleOptions p).cb.sndMax = s.cb.sndMax := by
  have path : ViewPath (fun _ a => (∃ b, a = .sack p b) ∨ ∃ m, a = .rewrite p m) s.view
      (s.handleOptions p).view :=
    s.handleOptions_path p (fun _ b _ => .inl ⟨b, rfl⟩) fun _ => .inr ⟨_, rfl⟩
  refine path.invariant (I := fun v => v.sndUna = s.cb.sndUna ∧ v.sndMax = s.cb.sndMax)
    ⟨rfl, rfl⟩ ?_
  rintro v a w same (⟨b, rfl⟩ | ⟨m, rfl⟩) step
  · cases step with
    | sack => exact same
  · cases step with
    | rewrite => exact same

/-- What a path through `handle_ack` needs of the condition it is to meet. Unlabelled steps
are taken only where the packet needs no further work. -/
structure AckOk (C : View → Act → Prop) (s : Endpoint) (p : UdtPacket) : Prop where
  free : (s.handleAck p).1 = true → ∀ v, C v .tau
  ackAll : s.cb.sndMax = p.hdr.ack → C s.view (.ackAll p)
  ack : ∀ v, C v (.ack p)
  sack : ∀ v, ∀ block ∈ p.options.1, C v (.sack p block)
  rewrite : ∀ v, C v (.rewrite p p.options.2)
  restore : (s.handleAck p).1 = true → ∀ u w, ViewPath C s.view u →
    ViewPath OnlyTau { u with sndNxt := u.sndUna } w → C w (.restore u.sndNxt)

theorem doFastRexmt_path (s : Endpoint) (free : ∀ v, C v .tau)
    (restore : ∀ w, ViewPath OnlyTau { s.view with sndNxt := s.cb.sndUna } w →
      C w (.restore s.cb.sndNxt)) :
    ViewPath C s.view (s.doFastRexmt s.cb.sndUna).view := by
  rw [doFastRexmt]
  dsimp only
  have lost := s.handlePacketLost_view
  generalize s.handlePacketLost = s₁ at lost ⊢
  have una : s₁.cb.sndUna = s.cb.sndUna := congrArg (fun v : View => v.sndUna) lost
  have begun : (s₁.beginFastRexmt s.cb.sndUna).view = { s.view with sndNxt := s.cb.sndUna } := by
    rw [beginFastRexmt, validateFirstPkt_view, ← lost]
    rfl
  generalize s₁.beginFastRexmt s.cb.sndUna = s₂ at begun ⊢
  have sent := s₂.output_path
  rw [begun] at sent
  have ok := restore _ sent
  generalize s₂.output = s₃ at sent ok ⊢
  have back : ({ s₃ with cb.sndCwnd := s₁.cb.sndCwnd, cb.sndNxt := s.cb.sndNxt } : Endpoint).view =
      { s₃.view with sndNxt := s.cb.sndNxt } := rfl
  rw [back]
  have start : ViewPath C s.view { s.view with sndNxt := s.cb.sndUna } :=
    .single (free _) (Step.rewind (v := s.view))
  exact (start.trans (sent.of_tau free)).trans (.single ok Step.restore)

theorem ackDuplicate_path (s : Endpoint) (p : UdtPacket) (same : p.hdr.ack = s.cb.sndUna)
    (free : (s.ackDuplicate p.hdr).1 = true → ∀ v, C v .tau)
    (restore : (s.ackDuplicate p.hdr).1 = true →
      ∀ w, ViewPath OnlyTau { s.view with sndNxt := s.cb.sndUna } w →
        C w (.restore s.cb.sndNxt)) :
    ViewPath C s.view (s.ackDuplicate p.hdr).2.view := by
  have quiet : ∀ x : Endpoint, x.view = s.view → ViewPath C s.view x.view := by
    intro x view
    rw [view]
    exact .refl _
  rw [ackDuplicate] at free restore ⊢
  dsimp only at free restore ⊢
  by_cases window : p.hdr.win.setWidth 32 ≠ s.cb.sndWnd
  · rw [if_pos window]
    exact quiet _ ((resetRexmtTimer_view { { s with
      cb := s.cb.updateSndWnd (p.hdr.win.setWidth 32) } with cb.flags.needOutput := true }).trans
      (s.updateSndWnd_view _))
  rw [if_neg window] at free restore ⊢
  by_cases stopped : s.cb.tRexmt = 0
  · rw [if_pos stopped]
    exact quiet _ (resetRexmtTimer_view { s with cb.dupacks := 0 })
  rw [if_neg stopped] at free restore ⊢
  split at free
  · next fast =>
      rw [if_pos fast] at restore ⊢
      rw [same]
      exact doFastRexmt_path { s with cb.dupacks := s.cb.dupacks + 1, cb.rtt := 0 } (free rfl)
        (restore rfl)
  · next slow =>
      rw [if_neg slow]
      split
      · exact quiet _ rfl
      · exact quiet _ (resetRexmtTimer_view { s with cb.dupacks := s.cb.dupacks + 1 })

theorem ackNewData_path (s : Endpoint) (p : UdtPacket) (above : seqGt p.hdr.ack s.cb.sndUna)
    (sent : seqLe p.hdr.ack s.cb.sndMax) (ok : C s.view (.ack p)) :
    ViewPath C s.view (s.ackNewData p.hdr).view := by
  rw [ackNewData]
  dsimp only
  generalize grown : ({ s with cb := { ({ s.cb with flags.notifyWrite := true } : UdtCb).incrSndCwnd with
    dupacks := 0 } } : Endpoint) = s₁
  have view : s₁.view = s.view := by
    rw [← grown]
    rfl
  have una : s₁.cb.sndUna = s.cb.sndUna := congrArg (fun v : View => v.sndUna) view
  have max : s₁.cb.sndMax = s.cb.sndMax := congrArg (fun v : View => v.sndMax) view
  have dropped := dropAckedData_path s₁ p (by rwa [una]) (by rwa [max]) (by rwa [view])
  rw [view] at dropped
  generalize s₁.dropAckedData p.hdr.ack = s₂ at dropped ⊢
  have window : ({ s₂ with cb := ({ s₂.cb.updateSndWnd (p.hdr.win.setWidth 32) with
      flags.needOutput := true } : UdtCb).resetRexmtTimer } : Endpoint).view = s₂.view :=
    (resetRexmtTimer_view { s₂ with cb := { s₂.cb.updateSndWnd (p.hdr.win.setWidth 32) with
      flags.needOutput := true } }).trans (s₂.updateSndWnd_view _)
  exact window ▸ dropped

theorem handleAck_path (s : Endpoint) (p : UdtPacket) (ok : AckOk C s p) :
    ViewPath C s.view (s.handleAck p).2.view := by
  have free := ok.free
  have restore := ok.restore
  rw [handleAck] at free restore ⊢
  dsimp only at free restore ⊢
  by_cases old : seqLt p.hdr.ack s.cb.sndUna
  · rw [if_pos old]
    exact .refl _
  rw [if_neg old] at free restore ⊢
  by_cases beyond : seqGt p.hdr.ack s.cb.sndMax
  · rw [if_pos beyond] at free ⊢
    exact .single (free rfl _) (Step.error (v := s.view))
  rw [if_neg beyond] at free restore ⊢
  have first : ViewPath C s.view
      (if s.cb.sndMax = p.hdr.ack then s.updateAckState else s).view ∧
      (if s.cb.sndMax = p.hdr.ack then s.updateAckState else s).cb.sndUna = s.cb.sndUna ∧
      (if s.cb.sndMax = p.hdr.ack then s.updateAckState else s).cb.sndMax = s.cb.sndMax := by
    split
    · next all =>
        obtain ⟨c, _, view⟩ := s.updateAckState_view
        exact ⟨s.updateAckState_path p all (ok.ackAll all),
          congrArg (fun v : View => v.sndUna) view, congrArg (fun v : View => v.sndMax) view⟩
    · exact ⟨.refl _, rfl, rfl⟩
  generalize (if s.cb.sndMax = p.hdr.ack then s.updateAckState else s) = s₁
    at first free restore ⊢
  obtain ⟨path₁, una₁, max₁⟩ := first
  have second : ViewPath C s.view
      (if UdtHdr.size < p.hdr.off.toNat then s₁.handleOptions p else s₁).view ∧
      (if UdtHdr.size < p.hdr.off.toNat then s₁.handleOptions p else s₁).cb.sndUna = s.cb.sndUna ∧
      (if UdtHdr.size < p.hdr.off.toNat then s₁.handleOptions p else s₁).cb.sndMax =
        s.cb.sndMax := by
    split
    · obtain ⟨una₂, max₂⟩ := s₁.handleOptions_seqs p
      exact ⟨path₁.trans (s₁.handleOptions_path p ok.sack ok.rewrite), una₂.trans una₁,
        max₂.trans max₁⟩
    · exact ⟨path₁, una₁, max₁⟩
  generalize (if UdtHdr.size < p.hdr.off.toNat then s₁.handleOptions p else s₁) = s₂
    at second free restore ⊢
  obtain ⟨path₂, una₂, max₂⟩ := second
  split at free
  · next same =>
      rw [if_pos same] at restore ⊢
      exact path₂.trans (ackDuplicate_path s₂ p same free
        fun slow w => restore slow s₂.view w path₂)
  · next differ =>
      rw [if_neg differ]
      refine path₂.trans (ackNewData_path s₂ p ?_ ?_ (ok.ack _))
      · rw [una₂] at differ ⊢
        rw [seqLt_iff] at old
        rw [seqGt_iff]
        bv_omega
      · rw [max₂]
        exact not_not.mp beyond

theorem handleFin_view (s : Endpoint) : s.handleFin.view = { s.view with
    finHandled := true
    rcvNxt := if s.cb.state.haveRcvdFin then s.cb.rcvNxt else s.cb.rcvNxt + 1
    lastError := if s.cb.state.haveRcvdFin then s.cb.lastError else .eof
    state := s.cb.state.finned } := by
  unfold handleFin UdtCb.TCPS_HAVERCVDFIN
  cases state : s.cb.state <;>
    simp [view, Conn.core, state, TcpState.haveRcvdFin, TcpState.finned]

theorem handleFin_path (s : Endpoint) (ok : C s.view .fin) :
    ViewPath C s.view s.handleFin.view := by
  rw [handleFin_view]
  exact .single ok (Step.fin (v := s.view))

/-- The steps of `handle_ack` for a packet whose processing goes on. -/
def AckSteps (p : UdtPacket) (_ : View) (a : Act) : Prop :=
  a = .ackAll p ∨ a = .ack p ∨ (∃ block, a = .sack p block) ∨ a = .rewrite p p.options.2

theorem handleAck_quiet (s : Endpoint) (p : UdtPacket) (goes : (s.handleAck p).1 = false) :
    ViewPath (AckSteps p) s.view (s.handleAck p).2.view := by
  apply handleAck_path
  refine ⟨?_, fun _ => .inl rfl, fun _ => .inr (.inl rfl),
    fun _ b _ => .inr (.inr (.inl ⟨b, rfl⟩)), fun _ => .inr (.inr (.inr rfl)), ?_⟩ <;>
    · intro done
      rw [goes] at done
      contradiction

/-- Whether a packet goes to `TCP_REASS`. -/
def needsReass (ti : UdtHdr) : Prop :=
  ti.len ≠ 0 ∨ hasFlag ti.flags (UdtHdr.TH_SYN ||| UdtHdr.TH_FIN)

instance (ti : UdtHdr) : Decidable (needsReass ti) := inferInstanceAs (Decidable (_ ∨ _))

/-- The state after `TCP_REASS` in `input`. -/
def stored (s : Endpoint) (p : UdtPacket) : Endpoint :=
  if needsReass p.hdr then s.TCP_REASS p else s

structure SegmentOk (C : View → Act → Prop) (s : Endpoint) (p : UdtPacket) : Prop where
  store : needsReass p.hdr → C s.view (.store p)
  ack : hasAck p.hdr.flags = true → AckOk C (s.stored p) p
  finAck : (s.stored p).sk.rcvBuf.fin = true → hasAck p.hdr.flags = true →
    ((s.stored p).handleAck p).1 = false → C ((s.stored p).handleAck p).2.view .fin
  finPlain : (s.stored p).sk.rcvBuf.fin = true → hasAck p.hdr.flags = false →
    C (s.stored p).view .fin

theorem stored_path (s : Endpoint) (p : UdtPacket) (ok : needsReass p.hdr → C s.view (.store p)) :
    ViewPath C s.view (s.stored p).view := by
  unfold stored
  split
  · next needs => exact s.TCP_REASS_path p (ok needs)
  · exact .refl _

theorem inputSegment_eq (s : Endpoint) (p : UdtPacket) : s.inputSegment p =
    if hasAck p.hdr.flags then
      if ((s.stored p).handleAck p).1 = false ∧ (s.stored p).sk.rcvBuf.fin = true
      then ((s.stored p).handleAck p).2.handleFin else ((s.stored p).handleAck p).2
    else if (s.stored p).sk.rcvBuf.fin then (s.stored p).handleFin else s.stored p := by
  have stores : (if p.hdr.len ≠ 0 ∨ hasFlag p.hdr.flags (UdtHdr.TH_SYN ||| UdtHdr.TH_FIN)
      then s.TCP_REASS p else s) = s.stored p := rfl
  rw [inputSegment, stores]
  rcases (s.stored p).handleAck p with ⟨_ | _, x⟩ <;> simp

theorem inputSegment_path (s : Endpoint) (p : UdtPacket) (ok : SegmentOk C s p) :
    ViewPath C s.view (s.inputSegment p).view := by
  rw [inputSegment_eq]
  have first := s.stored_path p ok.store
  split
  · next ack =>
      have second := first.trans (handleAck_path _ p (ok.ack ack))
      split
      · next fin => exact second.trans (handleFin_path _ (ok.finAck fin.2 ack fin.1))
      · exact second
  · next plain =>
      split
      · next fin =>
          exact first.trans (handleFin_path _ (ok.finPlain fin (by simpa using plain)))
      · exact first

/-- The packet reaches the protocol: the connection is open, it is no reset, and it passes
the window test. -/
def admits (s : Endpoint) (ti : UdtHdr) : Bool :=
  s.cb.state != .closed && !hasRst ti.flags && !s.withRcvWnd.outOfRcvWnd ti

theorem admits_iff (s : Endpoint) (ti : UdtHdr) : s.admits ti = true ↔
    s.cb.state ≠ .closed ∧ hasRst ti.flags = false ∧ s.withRcvWnd.outOfRcvWnd ti = false := by
  simp [admits, and_assoc]

/-- What a path through `input` needs of the condition it is to meet. The state in which a
packet is processed may differ from the state before in what the view leaves out. -/
structure PacketOk (C : View → Act → Prop) (s : Endpoint) (p : UdtPacket) : Prop where
  free : ∀ v, C v .tau
  ack : hasAck p.hdr.flags = true → ∀ v, C v (.ack p)
  predicted : s.admits p.hdr = true → hasSyn p.hdr.flags = false → hasFin p.hdr.flags = false →
    p.hdr.len ≠ 0 → C s.view (.store p)
  plain : s.admits p.hdr = true → hasSyn p.hdr.flags = false →
    ∀ x : Endpoint, x.view = s.view → SegmentOk C x p
  syn : s.admits p.hdr = true → hasSyn p.hdr.flags = true → C s.view (.syn p)
  synced : s.admits p.hdr = true → hasSyn p.hdr.flags = true →
    ∀ x : Endpoint, x.view = s.view → (x.handleSyn p).1 = false →
      SegmentOk C (x.handleSyn p).2.2 (x.handleSyn p).2.1

theorem store_single (s : Endpoint) (p : UdtPacket) (next : p.hdr.seq = s.cb.rcvNxt)
    (empty : s.sk.rcvBuf.reasmPkts = []) (fits : p.hdr.len.toNat ≤ s.sk.rcvBuf.acc.toNat) :
    Step s.view (.store p) { s.view with
      rcvBuf := s.sk.rcvBuf.take [p] []
      rcvNxt := s.cb.rcvNxt + p.hdr.len.setWidth 32
      packetConsumed := true } := by
  have len : BitVec.ofNat 32 (totalLen [p]) = p.hdr.len.setWidth 32 := by
    rw [totalLen_cons, totalLen_nil, Nat.add_zero]
    bv_omega
  rw [← len]
  exact @Step.store s.view p [] [] [p] [] empty (by simp) (by simp)
    rfl ⟨next, trivial⟩ (by rwa [totalLen_cons, totalLen_nil, Nat.add_zero]) (by simp)

theorem predicted_flags : ∀ flags : UChar,
    flags &&& (UdtHdr.TH_SYN ||| UdtHdr.TH_FIN ||| UdtHdr.TH_RST ||| UdtHdr.TH_ACK) =
      UdtHdr.TH_ACK → hasSyn flags = false ∧ hasFin flags = false ∧ hasAck flags = true := by
  decide +kernel

theorem outputData_path (s : Endpoint) : ViewPath OnlyTau s.view s.outputData.view := by
  unfold outputData
  split
  · exact s.output_path
  · exact .refl _

/-- The fast path appends or acknowledges as the slow path would, or leaves the packet to it. -/
theorem doHeaderPrediction_path (s : Endpoint) (p : UdtPacket) (free : ∀ v, C v .tau)
    (ack : hasAck p.hdr.flags = true → C s.view (.ack p))
    (store : hasSyn p.hdr.flags = false → hasFin p.hdr.flags = false → p.hdr.len ≠ 0 →
      C s.view (.store p)) :
    ViewPath C s.view (s.doHeaderPrediction p).2.view ∧
      ((s.doHeaderPrediction p).1 = false → (s.doHeaderPrediction p).2.view = s.view) := by
  rw [doHeaderPrediction]
  dsimp only
  split
  case isFalse => exact ⟨.refl _, fun _ => rfl⟩
  case isTrue usual =>
    obtain ⟨_, flags, next, _, _, _⟩ := usual
    obtain ⟨noSyn, noFin, isAck⟩ := predicted_flags _ flags
    by_cases bare : p.hdr.len = 0
    case pos =>
      rw [if_pos bare]
      split
      case isFalse => exact ⟨.refl _, fun _ => rfl⟩
      case isTrue new =>
        refine ⟨?_, fun contra => by simp at contra⟩
        have dropped := s.dropAckedData_path p new.1 new.2.1 (ack isAck)
        generalize s.dropAckedData p.hdr.ack = s₁ at dropped ⊢
        have timed : ({ s₁ with cb := { s₁.cb.resetRexmtTimer with
            flags.notifyWrite := true } } : Endpoint).view = s₁.view := s₁.resetRexmtTimer_view
        rw [← timed] at dropped
        exact dropped.trans ((outputData_path _).of_tau free)
    case neg =>
      rw [if_neg bare]
      split
      case isFalse => exact ⟨.refl _, fun _ => rfl⟩
      case isTrue room =>
        rw [rcvBuf_append room.2.2, room.2.1]
        exact ⟨.single (store noSyn noFin bare) (s.store_single p next room.2.1 room.2.2),
          fun contra => by simp at contra⟩

theorem outOfRcvWnd_congr {c d : Conn} (nxt : c.cb.rcvNxt = d.cb.rcvNxt)
    (wnd : c.cb.rcvWnd = d.cb.rcvWnd) (ti : UdtHdr) : c.outOfRcvWnd ti = d.outOfRcvWnd ti := by
  unfold Conn.outOfRcvWnd
  rw [nxt, wnd]

theorem admits_of_view {x s : Endpoint} (view : x.view = s.view) (ti : UdtHdr) :
    x.admits ti = s.admits ti := by
  have state : x.cb.state = s.cb.state := congrArg (fun v : View => v.state) view
  have nxt : x.cb.rcvNxt = s.cb.rcvNxt := congrArg (fun v : View => v.rcvNxt) view
  have adv : x.cb.rcvAdv = s.cb.rcvAdv := congrArg (fun v : View => v.rcvAdv) view
  have buf : x.sk.rcvBuf = s.sk.rcvBuf := congrArg (fun v : View => v.rcvBuf) view
  have window : x.rcvWindow = s.rcvWindow := by
    rw [Conn.rcvWindow, Conn.rcvWindow, adv, nxt, buf]
  have test := outOfRcvWnd_congr (c := x.withRcvWnd.toConn) (d := s.withRcvWnd.toConn) nxt window ti
  rw [admits, admits, state, test]

theorem inputChecked_path (s : Endpoint) (p : UdtPacket) (ok : PacketOk C s p) :
    ViewPath C s.view (s.inputChecked p).view := by
  rw [inputChecked]
  dsimp only
  have timed := updateRtt_view
    { s with cb.pseq := p.hdr.seq, cb.idle := 0, cb.tKeep := sKeepidle } p.hdr.pseq
  generalize updateRtt
    { s with cb.pseq := p.hdr.seq, cb.idle := 0, cb.tKeep := sKeepidle } p.hdr.pseq = x at timed ⊢
  have view : x.view = s.view := timed
  rw [← view]
  by_cases closed : x.cb.state = .closed
  · rw [if_pos closed]
    split
    · exact .single (ok.free _) (Step.error (v := x.view))
    · exact .refl _
  rw [if_neg closed]
  by_cases rst : hasRst p.hdr.flags = true
  · rw [if_pos rst]
    exact .single (ok.free _) (Step.error (v := x.view))
  rw [if_neg rst, dropOutOfRcvWndPacket_eq]
  by_cases out : x.withRcvWnd.outOfRcvWnd p.hdr = true
  · rw [if_pos out]
    exact .refl _
  rw [if_neg out]
  have admitted : s.admits p.hdr = true := by
    rw [← admits_of_view view, admits_iff]
    exact ⟨closed, by simpa using rst, by simpa using out⟩
  have wview : x.withRcvWnd.view = s.view := view
  have wview' : x.withRcvWnd.view = x.view := rfl
  rw [← wview']
  dsimp only
  generalize x.withRcvWnd = w at wview ⊢
  obtain ⟨fast, missed⟩ := w.doHeaderPrediction_path p ok.free (fun isAck => ok.ack isAck _)
    (fun noSyn noFin long => wview ▸ ok.predicted admitted noSyn noFin long)
  generalize w.doHeaderPrediction p = result at fast missed ⊢
  obtain ⟨_ | _, y⟩ := result
  case true => exact fast
  case false =>
    have yview : y.view = w.view := missed rfl
    rw [← yview]
    have same : y.view = s.view := yview.trans wview
    dsimp only
    split
    · next isSyn =>
        have synced := y.handleSyn_path p (same ▸ ok.syn admitted isSyn)
        have next := ok.synced admitted isSyn y same
        generalize y.handleSyn p = outcome at synced next ⊢
        obtain ⟨_ | _, q, z⟩ := outcome
        · exact synced.trans (z.inputSegment_path q (next rfl))
        · exact synced
    · next noSyn =>
        exact y.inputSegment_path p (ok.plain admitted (by simpa using noSyn) y same)

theorem resetPeer_path (s : Endpoint) : ViewPath OnlyTau s.view s.resetPeer.view :=
  (@Step.reset s.view (s.sk.rcvBuf.acc.setWidth 16) s.cb.pseq).path

theorem commitNotifies_path (s : Endpoint) : ViewPath OnlyTau s.view s.commitNotifies.view := by
  have output : ∀ x : Endpoint, ViewPath OnlyTau x.view x.commitOutput.view := by
    intro x
    unfold commitOutput
    split
    · exact x.output_path
    · exact .refl _
  have reset : ∀ x : Endpoint, ViewPath OnlyTau x.view x.commitReset.view := by
    intro x
    unfold commitReset
    split
    · exact x.resetPeer_path
    · exact .refl _
  have read : ∀ x : Endpoint, ViewPath OnlyTau x.view x.commitRead.view := by
    intro x
    have readable : ViewPath OnlyTau x.view x.notifyReadable.view := by
      unfold notifyReadable
      split
      · exact x.onReadable_path
      · exact .refl _
    unfold commitRead
    split
    · exact readable
    · exact .refl _
  have write : ∀ x : Endpoint, ViewPath OnlyTau x.view x.commitWrite.view := by
    intro x
    unfold commitWrite
    split
    · exact x.onWritable_path
    · exact .refl _
  have drop : ∀ x : Endpoint, ViewPath OnlyTau x.view x.commitDrop.view := by
    intro x
    unfold commitDrop
    split
    · exact x.drop_path x.cb.lastError
    · exact .refl _
  exact ((((output s).trans (reset _)).trans (read _)).trans (write _)).trans (drop _)

theorem pktConsumed_view (s : Endpoint) : if s.pktConsumed.1 = true then
    s.pktConsumed.2.view = { s.view with packetConsumed := false }
    else s.pktConsumed.2.view = s.view := by
  unfold pktConsumed
  cases s.cb.flags.packetConsumed <;> exact rfl

/-- The packet as `input` sees it past its integrity check. -/
def hostPacket (hdr : UdtHdr) (mem : List UChar) (buffer : Nat) : UdtPacket :=
  ⟨hdr.ntoh, mem, buffer⟩

/-- The checks of `input` on the datagram alone. -/
def intact (hdr : UdtHdr) (bytesReceived : Nat) : Prop :=
  UdtHdr.size ≤ bytesReceived ∧ hasHp hdr.flags = false ∧
    hdr.ntoh.len.toNat + hdr.ntoh.off.toNat = bytesReceived

instance (hdr : UdtHdr) (bytesReceived : Nat) : Decidable (intact hdr bytesReceived) :=
  inferInstanceAs (Decidable (_ ∧ _ ∧ _))

/-- `input` ends with the state of the buffer: the next receive reuses it, or it was queued. -/
theorem input_path (s : Endpoint) (p : UdtPacket) (n : Nat) (free : ∀ v, C v .tau)
    (ok : intact p.hdr n → PacketOk C s (hostPacket p.hdr p.mem p.buffer)) :
    ∃ v, ViewPath C s.view v ∧ if (s.input p n).1 = true then
      (s.input p n).2.view = { v with packetConsumed := false } else (s.input p n).2.view = v := by
  rw [input]
  by_cases short : n < UdtHdr.size
  · rw [if_pos short]
    exact ⟨_, .refl _, rfl⟩
  rw [if_neg short]
  by_cases punch : hasHp p.hdr.flags = true
  · rw [if_pos punch]
    exact ⟨_, .refl _, rfl⟩
  rw [if_neg punch]
  dsimp only
  split
  · exact ⟨_, .refl _, rfl⟩
  · next whole =>
      have passed := ok ⟨not_lt.mp short, by simpa using punch, not_not.mp whole⟩
      refine ⟨_, (s.inputChecked_path _ passed).trans ((commitNotifies_path _).of_tau free), ?_⟩
      exact pktConsumed_view _

theorem handleFastTimo_path (s : Endpoint) : ViewPath OnlyTau s.view s.handleFastTimo.view := by
  unfold handleFastTimo
  split
  · exact output_path { s with cb.flags := { s.cb.flags with delack := false, acknow := true } }
  · exact .refl _

theorem rexmtExpired_path (s : Endpoint) : ViewPath OnlyTau s.view s.rexmtExpired.view := by
  rw [rexmtExpired]
  dsimp only
  split
  · exact drop_path { s with cb.rxtshift := TCP_MAXRXTSHIFT } .timedOut
  · have backed : (backoffRexmt { s with cb.rxtshift := s.cb.rxtshift + 1 }).view = s.view := by
      unfold backoffRexmt
      dsimp only
      split <;> rfl
    generalize backoffRexmt { s with cb.rxtshift := s.cb.rxtshift + 1 } = x at backed ⊢
    have rewound : ViewPath OnlyTau x.view x.rewindAll.view := (Step.rewind (v := x.view)).path
    have ready : x.rewindAll.handlePacketLost.clearSndBufFlags.view = x.rewindAll.view := by
      rw [clearSndBufFlags_view, handlePacketLost_view]
    have sent := output_path x.rewindAll.handlePacketLost.clearSndBufFlags
    rw [ready] at sent
    rw [← backed]
    exact rewound.trans sent

theorem persistExpired_path (s : Endpoint) (free : ∀ v, C v .tau)
    (force : ∀ v on, C v (.force on)) : ViewPath C s.view s.persistExpired.view := by
  rw [persistExpired]
  dsimp only
  have ready : s.enterPersist.validateFirstPkt.view = s.view := by
    rw [validateFirstPkt_view, enterPersist_view]
  generalize s.enterPersist.validateFirstPkt = x at ready ⊢
  have forced : ViewPath C x.view ({ x with cb.force := true } : Endpoint).view :=
    .single (force _ _) (Step.force (v := x.view))
  have sent := (output_path { x with cb.force := true }).of_tau free
  generalize output { x with cb.force := true } = y at sent ⊢
  rw [← ready]
  exact (forced.trans sent).trans (.single (force _ _) (Step.force (v := y.view)))

theorem keepExpired_path (s : Endpoint) : ViewPath OnlyTau s.view s.keepExpired.view := by
  unfold keepExpired
  split
  · exact s.drop_path _
  · split
    · split
      · exact s.drop_path _
      · exact (@Step.keepalive s.view (s.sk.rcvBuf.acc.setWidth 16) s.cb.pseq).path
    · exact .refl _

theorem slowRexmt_path (s : Endpoint) : ViewPath OnlyTau s.view s.slowRexmt.view := by
  unfold slowRexmt
  split
  · exact .refl _
  · dsimp only
    split
    · exact rexmtExpired_path { s with cb.tRexmt := s.cb.tRexmt - 1 }
    · exact .refl _

theorem slowPersist_path (s : Endpoint) (free : ∀ v, C v .tau)
    (force : ∀ v on, C v (.force on)) : ViewPath C s.view s.slowPersist.view := by
  unfold slowPersist
  split
  · exact .refl _
  · dsimp only
    split
    · exact persistExpired_path { s with cb.tPersist := s.cb.tPersist - 1 } free force
    · exact .refl _

theorem slowKeep_path (s : Endpoint) : ViewPath OnlyTau s.view s.slowKeep.view := by
  unfold slowKeep
  split
  · exact .refl _
  · dsimp only
    split
    · exact keepExpired_path { s with cb.tKeep := s.cb.tKeep - 1 }
    · exact .refl _

theorem slow2msl_path (s : Endpoint) : ViewPath OnlyTau s.view s.slow2msl.view := by
  unfold slow2msl
  split
  · exact .refl _
  · dsimp only
    split
    · exact drop_path { s with cb.t2msl := s.cb.t2msl - 1 } _
    · exact .refl _

theorem handleSlowTimo_path (s : Endpoint) (free : ∀ v, C v .tau)
    (force : ∀ v on, C v (.force on)) : ViewPath C s.view s.handleSlowTimo.view := by
  have rexmt := s.slowRexmt_path.of_tau free
  have persist := s.slowRexmt.slowPersist_path free force
  have keep := s.slowRexmt.slowPersist.slowKeep_path.of_tau free
  have twoMsl := s.slowRexmt.slowPersist.slowKeep.slow2msl_path.of_tau free
  have all := ((rexmt.trans persist).trans keep).trans twoMsl
  rw [handleSlowTimo]
  generalize s.slowRexmt.slowPersist.slowKeep.slow2msl = x at all ⊢
  exact all

theorem doReceive_path (s : Endpoint) : ViewPath OnlyTau s.view s.doReceive.view := by
  unfold doReceive
  split
  · cases none : s.sk.rcvPkt with
    | none => exact (Step.alloc (v := s.view) none).path
    | some _ => exact .refl _
  · exact .refl _

theorem doReceive_congr (s x : Endpoint) (view : x.view = s.view)
    (pending : x.sk.rcvPkt = s.sk.rcvPkt) (open_ : x.sk.nextLayer = s.sk.nextLayer) :
    x.doReceive.view = s.doReceive.view := by
  have next : x.sk.nextBuffer = s.sk.nextBuffer := congrArg (fun v : View => v.nextBuffer) view
  unfold doReceive
  rw [pending, open_]
  split
  · cases s.sk.rcvPkt with
    | none =>
        change { x.view with
          rcvPkt := some x.sk.nextBuffer, nextBuffer := x.sk.nextBuffer + 1 } = _
        rw [view, next]
        rfl
    | some _ => exact view
  · exact view

theorem asyncConnect_path (s : Endpoint) (h : Nat) (free : ∀ v, C v .tau)
    (ok : C s.doReceive.view .connect) : ViewPath C s.view (s.asyncConnect h).view := by
  unfold asyncConnect
  split
  · have ready := (doReceive_path { s with sk.connectHandler := some h }).of_tau free
    have same : (doReceive { s with sk.connectHandler := some h }).view = s.doReceive.view :=
      doReceive_congr _ _ rfl rfl rfl
    generalize doReceive { s with sk.connectHandler := some h } = x at ready same ⊢
    rw [← same] at ok
    unfold connect
    split
    · exact ready
    · next closed =>
        have step : ViewPath C s.view _ :=
          ready.trans (.single ok (Step.connect (v := x.view) (not_not.mp closed)))
        exact step.trans ((output_path { x with
          cb := ({ x.cb with state := .synSent, tKeep := TCPTV_KEEP_INIT, iss := sIss } :
            UdtCb).tcpSendseqinit }).of_tau free)
  · exact .refl _

theorem asyncAccept_path (s : Endpoint) (h : Nat) (free : ∀ v, C v .tau)
    (ok : C s.doReceive.view .accept) : ViewPath C s.view (s.asyncAccept h).view := by
  unfold asyncAccept
  split
  · have ready := (doReceive_path { s with sk.acceptHandler := some h }).of_tau free
    have same : (doReceive { s with sk.acceptHandler := some h }).view = s.doReceive.view :=
      doReceive_congr _ _ rfl rfl rfl
    generalize doReceive { s with sk.acceptHandler := some h } = x at ready same ⊢
    rw [← same] at ok
    unfold accept
    split
    · exact ready
    · next closed =>
        exact ready.trans (.single ok (Step.accept (v := x.view) (not_not.mp closed)))
  · exact .refl _

theorem asyncShutdown_path (s : Endpoint) (h : Nat) (free : ∀ v, C v .tau)
    (ok : C s.view .shutdown) : ViewPath C s.view (s.asyncShutdown h).view := by
  unfold asyncShutdown
  split
  · have step := Step.shutdown (v := s.view)
    unfold shutdown
    dsimp only
    have state : s.view.state = s.cb.state := rfl
    rw [state] at step
    generalize s.cb.state = q at step ⊢
    cases q with
    | established =>
        exact (Trace.Path.single ok step).trans ((output_path { { s with
          sk.shutdownHandler := some h } with cb.state := .finWait1 }).of_tau free)
    | closeWait =>
        exact (Trace.Path.single ok step).trans ((output_path { { s with
          sk.shutdownHandler := some h } with cb.state := .lastAck }).of_tau free)
    | _ => exact .refl _
  · exact .refl _

theorem asyncSend_path (s : Endpoint) (op : SendOperation) (free : ∀ v, C v .tau)
    (ok : C s.view (.send op)) : ViewPath C s.view (s.asyncSend op).view := by
  unfold asyncSend
  split
  · exact .refl _
  · split
    · exact (s.post_path _ ⟨by simp [Completion.sentBytes], rfl⟩).of_tau free
    · next good =>
        obtain ⟨_, some_, fine⟩ := by simpa only [not_or] using good
        dsimp only
        generalize queued : ({ s with
          sk.sendOps := s.sk.sendOps ++ [op]
          sk.pendingData := s.sk.pendingData + BitVec.ofNat 32 op.buf.size } : Endpoint) = x
        have step : ViewPath C s.view x.view := by
          rw [← queued]
          exact .single ok (Step.send (v := s.view) (not_not.mp fine) some_)
        have consumed := x.consumePendingData_path
        generalize x.consumePendingData = result at consumed ⊢
        obtain ⟨n, y⟩ := result
        dsimp only at consumed ⊢
        split
        · exact (step.trans (consumed.of_tau free)).trans (y.output_path.of_tau free)
        · exact step.trans (consumed.of_tau free)

theorem asyncReceive_path (s : Endpoint) (op : RecvOperation) :
    ViewPath OnlyTau s.view (s.asyncReceive op).view := by
  unfold asyncReceive
  split
  · exact .refl _
  · split
    · exact (Step.refuseReceive (v := s.view)).path
    · exact (s.recvOps_path (s.sk.recvOps ++ [op])).trans (recvData_path _)

theorem handleMtu_view (s : Endpoint) : s.handleMtu.view = s.view := by
  unfold handleMtu UdtCb.setMtu
  split
  · split <;> rfl
  · rfl

theorem handleReceive_path (s : Endpoint) (hdr : UdtHdr) (mem : List UChar) (n : Nat)
    (free : ∀ v, C v .tau)
    (ok : ∀ buffer, s.sk.rcvPkt = some buffer → intact hdr n →
      PacketOk C s (hostPacket hdr mem buffer)) :
    ViewPath C s.view (s.handleReceive hdr mem n).view := by
  unfold handleReceive
  split
  · exact .refl _
  · cases pending : s.sk.rcvPkt with
    | none => exact .refl _
    | some buffer =>
        obtain ⟨v, path, result⟩ := s.input_path ⟨hdr, mem, buffer⟩ n free (ok buffer pending)
        dsimp only
        generalize s.input ⟨hdr, mem, buffer⟩ n = passed at result ⊢
        obtain ⟨_ | _, x⟩ := passed
        · obtain rfl : x.view = v := result
          exact path.trans (x.doReceive_path.of_tau free)
        · have view : x.view = { v with packetConsumed := false } := result
          have kept : ({ x with sk.rcvPkt := none } : Endpoint).view =
              { v with rcvPkt := none, packetConsumed := false } :=
            congrArg (fun v : View => { v with rcvPkt := none }) view
          have again := doReceive_path { x with sk.rcvPkt := none }
          rw [kept] at again
          exact (path.trans (Step.kept.path.of_tau free)).trans (again.of_tau free)

theorem handleReceiveError_path (s : Endpoint) (value : Int) :
    ViewPath OnlyTau s.view (s.handleReceiveError value).view := by
  rw [handleReceiveError_eq]
  split
  · have released := (Step.release (v := s.view)).path
    exact released.trans (onDisconnected_path { s with sk.rcvPkt := none })
  · exact .refl _

theorem close_path (s : Endpoint) (free : ∀ v, C v .tau) (ok : ∀ v, C v .close) :
    ViewPath C s.view s.close.view := by
  unfold close
  split
  · have cancelled := s.cancel_path
    dsimp only
    generalize s.cancel = x at cancelled ⊢
    exact (cancelled.of_tau free).trans (.single (ok _) (Step.close (v := x.view)))
  · exact .refl _

/-- What a path through an event needs of the condition it is to meet. -/
def EventOk (C : View → Act → Prop) (s : Endpoint) : Event → Prop
  | .connect _ => C s.doReceive.view .connect
  | .accept _ => C s.doReceive.view .accept
  | .packet hdr mem n => ∀ buffer, s.sk.rcvPkt = some buffer → intact hdr n →
      PacketOk C s (hostPacket hdr mem buffer)
  | .slowTimo => ∀ v on, C v (.force on)
  | .send op => C s.view (.send op)
  | .shutdown _ => C s.view .shutdown
  | .setSndBuf v => C s.view (.sndLimit v)
  | .setRcvBuf v => C s.view (.rcvLimit v)
  | .close => ∀ v, C v .close
  | _ => True

/-- Every event is a path of the view's steps. -/
theorem step_path (s : Endpoint) (e : Event) (free : ∀ v, C v .tau) (ok : EventOk C s e) :
    ViewPath C s.view (s.step e).view := by
  cases e with
  | connect h => exact s.asyncConnect_path h free ok
  | accept h => exact s.asyncAccept_path h free ok
  | packet hdr mem n => exact s.handleReceive_path hdr mem n free ok
  | slowTimo =>
      rw [step, slowTimer]
      split
      · exact s.handleSlowTimo_path free ok
      · exact .refl _
  | fastTimo =>
      rw [step, fastTimer]
      split
      · exact s.handleFastTimo_path.of_tau free
      · exact .refl _
  | send op => exact s.asyncSend_path op free ok
  | receive op => exact (s.asyncReceive_path op).of_tau free
  | shutdown h => exact s.asyncShutdown_path h free ok
  | delayTimer aborted => exact (s.handleDelayRecvOperation_path aborted).of_tau free
  | receiveError value => exact (s.handleReceiveError_path value).of_tau free
  | mtu =>
      rw [step, handleMtu_view]
      exact .refl _
  | setKeepalive on => exact .refl _
  | setSndBuf v => exact .single ok (Step.sndLimit (v := s.view))
  | setRcvBuf v => exact .single ok (Step.rcvLimit (v := s.view))
  | cancel => exact s.cancel_path.of_tau free
  | close => exact s.close_path free ok

end Endpoint

end UdtBoost
