import UdtBoost.Effects

/-! The retransmission and the persist timer exclude one another. Both are seen as one clock
whose operations keep them apart; no block of code does anything else to it. -/
namespace UdtBoost

/-- The two timers, what they are set from, and what their uses left in the history. -/
structure Clock where
  rexmt : Half
  persist : Half
  shift : Half
  current : Half
  least : Half
  entered : List Half
  read : List Half

namespace Clock

structure Good (c : Clock) : Prop where
  exclusive : c.rexmt = 0 ∨ c.persist = 0
  shift : c.shift.toNat ≤ TCP_MAXRXTSHIFT.toNat
  least : c.least = TCPTV_MIN
  current : TCPTV_MIN.toInt ≤ c.current.toInt ∧ c.current.toInt ≤ TCPTV_REXMTMAX.toInt
  entered : ∀ t ∈ c.entered, t = 0
  read : ∀ i ∈ c.read, i.toNat < sTcpBackoff.length

theorem range_bounds (value : Half) :
    TCPTV_MIN.toInt ≤ (TCPT_RANGESET value TCPTV_MIN TCPTV_REXMTMAX).toInt ∧
      (TCPT_RANGESET value TCPTV_MIN TCPTV_REXMTMAX).toInt ≤ TCPTV_REXMTMAX.toInt := by
  unfold TCPT_RANGESET
  have ordered : TCPTV_MIN.toInt ≤ TCPTV_REXMTMAX.toInt := by decide
  split
  · exact ⟨le_rfl, ordered⟩
  · split
    · exact ⟨ordered, le_rfl⟩
    · next low high => exact ⟨not_lt.mp low, not_lt.mp high⟩

variable {c : Clock}

theorem Good.stop (good : c.Good) : Good { c with rexmt := 0 } :=
  { good with exclusive := .inl rfl }

theorem Good.start (good : c.Good) (off : c.persist = 0) (value : Half) :
    Good { c with rexmt := value } :=
  { good with exclusive := .inr off }

theorem Good.leave (good : c.Good) : Good { c with persist := 0, shift := 0 } :=
  { good with exclusive := .inr rfl, shift := Nat.zero_le _ }

theorem Good.unshift (good : c.Good) : Good { c with shift := 0 } :=
  { good with shift := Nat.zero_le _ }

theorem Good.tick (good : c.Good) (running : c.rexmt ≠ 0) (value : Half) :
    Good { c with rexmt := value } :=
  good.start (good.exclusive.resolve_left running) value

theorem Good.tickPersist (good : c.Good) (running : c.persist ≠ 0) (value : Half) :
    Good { c with persist := value } :=
  { good with exclusive := .inl (good.exclusive.resolve_right running) }

theorem Good.inTable (good : c.Good) : c.shift.toNat < sTcpBackoff.length :=
  Nat.lt_succ_of_le good.shift

theorem Good.readShift (good : c.Good) : Good { c with read := c.read ++ [c.shift] } where
  exclusive := good.exclusive
  shift := good.shift
  least := good.least
  current := good.current
  entered := good.entered
  read := by
    intro i member
    rcases List.mem_append.mp member with old | last
    · exact good.read i old
    · rw [List.mem_singleton.mp last]
      exact good.inTable

theorem Good.retime (good : c.Good) (value : Half) :
    Good { c with current := TCPT_RANGESET value c.least TCPTV_REXMTMAX } :=
  { good with current := good.least ▸ range_bounds value }

theorem shift_succ {n : Half} (small : n.toNat < TCP_MAXRXTSHIFT.toNat) :
    (n + 1).toNat ≤ TCP_MAXRXTSHIFT.toNat := by
  have max : TCP_MAXRXTSHIFT.toNat = 12 := rfl
  bv_omega

theorem toInt_small {n : Half} (small : n.toNat ≤ 32767) : n.toInt = n.toNat := by
  rw [BitVec.toInt_eq_toNat_cond, if_pos]
  omega

theorem Good.backOff (good : c.Good) (within : ¬ TCP_MAXRXTSHIFT.toInt < (c.shift + 1).toInt) :
    Good { c with shift := c.shift + 1 } := by
  have max : TCP_MAXRXTSHIFT.toNat = 12 := rfl
  have maxInt : TCP_MAXRXTSHIFT.toInt = 12 := rfl
  have bound := good.shift
  have small : (c.shift + 1).toNat ≤ 13 := by bv_omega
  rw [maxInt, toInt_small (by omega)] at within
  exact { good with shift := by show (c.shift + 1).toNat ≤ TCP_MAXRXTSHIFT.toNat; omega }

/-- `enter_persist` with the retransmission timer off. -/
theorem Good.enter (good : c.Good) (off : c.rexmt = 0) (value : Half) :
    Good { c with
      persist := value
      shift := if c.shift.toInt < TCP_MAXRXTSHIFT.toInt then c.shift + 1 else c.shift
      entered := c.entered ++ [c.rexmt]
      read := c.read ++ [c.shift] } where
  exclusive := .inl off
  shift := by
    have max : TCP_MAXRXTSHIFT.toNat = 12 := rfl
    have maxInt : TCP_MAXRXTSHIFT.toInt = 12 := rfl
    have bound := good.shift
    dsimp only
    split
    · next small =>
        rw [maxInt, toInt_small (by omega)] at small
        exact shift_succ (by omega)
    · exact bound
  least := good.least
  current := good.current
  entered := by
    intro t member
    rcases List.mem_append.mp member with old | last
    · exact good.entered t old
    · rw [List.mem_singleton.mp last, off]
  read := good.readShift.read

end Clock

namespace Endpoint

/-- The clock inside an endpoint. -/
def clock (s : Endpoint) : Clock :=
  ⟨s.cb.tRexmt, s.cb.tPersist, s.cb.rxtshift, s.cb.rxtcur, s.cb.rttmin, s.persistEntered,
    s.backoffRead⟩

theorem leavePersist_good {s : Endpoint} (good : s.clock.Good) :
    ({ s with cb := s.cb.leavePersist } : Endpoint).clock.Good ∧ s.cb.leavePersist.tPersist = 0 := by
  unfold UdtCb.leavePersist
  split
  · exact ⟨good.leave, rfl⟩
  · next off => exact ⟨good, not_not.mp off⟩

theorem ready_good {s : Endpoint} (good : s.clock.Good) (pkt : Option UdtPacket) :
    (s.ready pkt).clock.Good := by
  unfold ready
  split
  · exact (leavePersist_good good).1
  · exact good

theorem Selects.good {s u : Endpoint} {pkt : Option UdtPacket} (selects : s.Selects pkt u)
    (good : s.clock.Good) : u.clock.Good := by
  cases selects with
  | closedWindow => exact good.stop
  | nothing | fresh | again => exact good

theorem armRexmt_good {s : Endpoint} (good : s.clock.Good) : s.armRexmt.clock.Good := by
  unfold armRexmt
  split
  · -- the timer is set before persist state is left
    have left := leavePersist_good good
    unfold UdtCb.leavePersist at left ⊢
    dsimp only
    split
    · next on =>
        rw [if_pos on] at left
        exact left.1.start rfl _
    · next off => exact good.start (not_not.mp off) _
  · exact good

theorem advanceNxt_clock (s : Endpoint) (flags : UChar) (len : Word) :
    (s.advanceNxt flags len).clock = s.clock := by
  unfold advanceNxt
  dsimp only
  split <;> split <;> rfl

theorem raiseSndMax_clock (s : Endpoint) (startseq : Word) :
    (s.raiseSndMax startseq).clock = s.clock := by
  unfold raiseSndMax
  split
  · dsimp only
    split <;> rfl
  · rfl

theorem outputSend_good {s : Endpoint} (good : s.clock.Good) (flags : UChar)
    (pkt : Option UdtPacket) (rcvWin : Word) : (s.outputSend flags pkt rcvWin).2.clock.Good := by
  have rewound : (s.outputRewind flags).clock = s.clock := by
    rw [outputRewind_eq]
    rfl
  have advanced : ((s.outputRewind flags).outputAdvance flags (Conn.pktLen pkt)).clock.Good := by
    unfold outputAdvance
    split
    · refine armRexmt_good ?_
      rwa [raiseSndMax_clock, advanceNxt_clock, rewound]
    · split <;> exact rewound ▸ good
  rw [outputSend]
  generalize (s.outputRewind flags).outputAdvance flags (Conn.pktLen pkt) = x at advanced ⊢
  unfold outputSent
  dsimp only
  split <;> exact advanced

theorem transmit_clock (u : Endpoint) (pkt : Option UdtPacket) (raw : Word) (t : Transmission) :
    (u.transmit pkt raw t).clock = (u.outputSend (u.sendFlags pkt) pkt raw).2.clock := by
  rw [transmit]
  generalize u.outputSend (u.sendFlags pkt) pkt raw = result
  rfl

theorem enterPersist_good {s : Endpoint} (good : s.clock.Good) (off : s.cb.tRexmt = 0) :
    s.enterPersist.clock.Good := by
  have entered := fun value => good.enter off value
  unfold enterPersist
  dsimp only
  split
  · next small => simpa only [clock, small, if_true] using entered _
  · next large => simpa only [clock, large, if_false] using entered _

theorem Output.good {s t : Endpoint} (block : Output s t) (good : s.clock.Good) :
    t.clock.Good := by
  cases block with
  | idle =>
      unfold outputIdle UdtCb.slowStart
      split
      · split <;> exact good
      · exact good
  | consume =>
      obtain ⟨ops, rest, b, _, _, result⟩ := s.consumePendingData_spec
      rw [result]
      exact good
  | @send u canSend raw pkt env t alive select must before dgram =>
      have ready : ({ u.ready pkt with env } : Endpoint).clock.Good :=
        ready_good ((outputSelect_selects select).good good) pkt
      rw [transmit_clock]
      exact outputSend_good ready _ pkt raw
  | @persist u canSend pkt select can =>
      have ready := ready_good ((outputSelect_selects select).good good) pkt
      have off : (u.ready pkt).cb.tRexmt = 0 := by
        rw [Conn.canPersist, Bool.and_eq_true] at can
        exact beq_iff_eq.mp can.2
      exact enterPersist_good (s := { u.ready pkt with cb.rxtshift := 0 }) ready.unshift off
  | @wait u canSend pkt select => exact ready_good ((outputSelect_selects select).good good) pkt
  | record => exact good

theorem output_good {s : Endpoint} (good : s.clock.Good) : s.output.clock.Good :=
  s.output_blocks.keeps good fun _ _ good block => block.good good

theorem resetRexmtTimer_good {s : Endpoint} (good : s.clock.Good) :
    ({ s with cb := s.cb.resetRexmtTimer } : Endpoint).clock.Good := by
  unfold UdtCb.resetRexmtTimer
  split
  · exact good.stop
  · split
    · next off => exact good.start off _
    · exact good

theorem xmitTimer_good {s : Endpoint} (good : s.clock.Good) (rtt : Half) :
    (s.xmitTimer rtt).clock.Good := by
  unfold xmitTimer
  dsimp only
  split <;> exact (good.unshift.retime _).readShift

theorem validateFirstPkt_clock (s : Endpoint) : s.validateFirstPkt.clock = s.clock := by
  unfold validateFirstPkt
  split
  · rfl
  · dsimp only
    split <;> rfl

theorem handlePacketLost_clock (s : Endpoint) : s.handlePacketLost.clock = s.clock := by
  unfold handlePacketLost UdtCb.decrSndCwnd
  dsimp only
  split <;> rfl

theorem doFastRexmt_good {s : Endpoint} (good : s.clock.Good) (ack : Word) :
    (s.doFastRexmt ack).clock.Good := by
  have begun : (s.handlePacketLost.beginFastRexmt ack).clock.Good := by
    have lost : s.handlePacketLost.clock.Good := by rwa [handlePacketLost_clock]
    unfold beginFastRexmt
    rw [validateFirstPkt_clock]
    exact lost.stop
  have sent := output_good begun
  rw [doFastRexmt]
  dsimp only
  generalize (s.handlePacketLost.beginFastRexmt ack).output = x at sent ⊢
  exact sent

theorem dropAckedData_clock (s : Endpoint) (ack : Word) : (s.dropAckedData ack).clock = s.clock := by
  obtain ⟨gone, rest, _, _, _, result⟩ := s.dropAckedData_spec ack
  rw [result]
  unfold UdtCb.updateSndUna UdtCb.updateSndFack
  dsimp only
  split <;> split <;> rfl

theorem updateSndWnd_clock (s : Endpoint) (win : Word) :
    ({ s with cb := s.cb.updateSndWnd win } : Endpoint).clock = s.clock := by
  unfold UdtCb.updateSndWnd
  dsimp only
  split <;> rfl

theorem ackPredicted_good {s : Endpoint} (good : s.clock.Good) (ack : Word) :
    (s.ackPredicted ack).clock.Good := by
  have dropped : (s.dropAckedData ack).clock.Good := by rwa [dropAckedData_clock]
  rw [ackPredicted]
  generalize s.dropAckedData ack = x at dropped ⊢
  exact resetRexmtTimer_good dropped

theorem ackWindow_good {s : Endpoint} (good : s.clock.Good) (win : Word) :
    (s.ackWindow win).clock.Good := by
  have moved : ({ s with cb := s.cb.updateSndWnd win } : Endpoint).clock.Good := by
    rwa [updateSndWnd_clock]
  rw [ackWindow]
  generalize ({ s with cb := s.cb.updateSndWnd win } : Endpoint) = x at moved ⊢
  exact resetRexmtTimer_good (s := { x with cb.flags.needOutput := true }) moved

theorem ackNewData_good {s : Endpoint} (good : s.clock.Good) (ti : UdtHdr) :
    (s.ackNewData ti).clock.Good := by
  rw [ackNewData]
  generalize opened : ({ s with
    cb := { ({ s.cb with flags.notifyWrite := true } : UdtCb).incrSndCwnd with dupacks := 0 } } :
      Endpoint) = x
  have same : x.clock = s.clock := by rw [← opened]; rfl
  have dropped : (x.dropAckedData ti.ack).clock.Good := by rwa [dropAckedData_clock, same]
  dsimp only
  generalize x.dropAckedData ti.ack = y at dropped ⊢
  have moved : ({ y with cb := y.cb.updateSndWnd (ti.win.setWidth 32) } : Endpoint).clock.Good := by
    rwa [updateSndWnd_clock]
  generalize y.cb.updateSndWnd (ti.win.setWidth 32) = cb at moved ⊢
  exact resetRexmtTimer_good (s := { y with cb := { cb with flags.needOutput := true } }) moved

theorem updateAckState_good {s : Endpoint} (good : s.clock.Good) : s.updateAckState.clock.Good := by
  have handshake : s.ackHandshake.clock.Good := by
    unfold ackHandshake
    split
    · exact good
    · have timed : ({ s with cb.state := .established } : Endpoint).timeHandshake.clock.Good := by
        unfold timeHandshake
        split
        · exact xmitTimer_good (s := { s with cb.state := .established }) good _
        · exact good
      obtain ⟨connect, accept, posted, result⟩ :=
        ({ s with cb.state := .established } : Endpoint).timeHandshake.onConnected_eq
      rw [result]
      exact timed
    · exact good
  rw [updateAckState]
  generalize s.ackHandshake = x at handshake ⊢
  unfold ackFin
  split
  · split
    · exact handshake
    · exact { handshake with exclusive := .inl rfl }
    · exact handshake
    · exact handshake
  · exact handshake

theorem rewindAll_clock (s : Endpoint) : s.rewindAll.clock = s.clock := rfl

theorem clearSndBufFlags_clock (s : Endpoint) : s.clearSndBufFlags.clock = s.clock := rfl

theorem backoffRexmt_good {s : Endpoint} (good : s.clock.Good) (off : s.cb.tPersist = 0) :
    s.backoffRexmt.clock.Good := by
  have retimed := (good.readShift.retime (s.cb.TCP_REXMTVAL * BitVec.ofNat 16 s.cb.backoff)).start
    off s.cb.rexmtTimerValue
  unfold backoffRexmt
  dsimp only
  split <;> exact retimed

theorem rexmtBegun_good {s : Endpoint} (good : s.clock.Good) (running : s.cb.tRexmt ≠ 0)
    (within : ¬ TCP_MAXRXTSHIFT.toInt < (s.cb.rxtshift + 1).toInt) : s.rexmtBegun.clock.Good := by
  have shifted := (good.backOff within).tick running (s.cb.tRexmt - 1)
  have off : s.cb.tPersist = 0 := good.exclusive.resolve_left running
  rw [rexmtBegun, clearSndBufFlags_clock, handlePacketLost_clock, rewindAll_clock]
  exact backoffRexmt_good shifted off

theorem persistBegun_good {s : Endpoint} (good : s.clock.Good) (running : s.cb.tPersist ≠ 0) :
    s.persistBegun.clock.Good := by
  have ticked : ({ s with cb.tPersist := s.cb.tPersist - 1 } : Endpoint).clock.Good :=
    good.tickPersist running _
  have entered := enterPersist_good ticked (good.exclusive.resolve_right running)
  rw [← validateFirstPkt_clock] at entered
  rw [persistBegun]
  dsimp only at entered ⊢
  generalize validateFirstPkt _ = x at entered ⊢
  exact entered

/-- Every block of code keeps the timers apart. -/
theorem clock_good {s t : Endpoint} {a : Tag} (block : Block s a t) (whole : a ≠ .disconnect)
    (good : s.clock.Good) : t.clock.Good := by
  cases block with
  | output block => exact block.good good
  | read =>
      obtain ⟨done, rest, rb, waits, _, _, result⟩ := s.recvDataLoop_spec s.sk.recvOps
      rw [result]
      exact good
  | @delayed n =>
      obtain ⟨done, rest, rb, _, result⟩ :=
        ({ s with sk.delayWaits := n } : Endpoint).delayedLoop_spec s.sk.recvOps
      rw [result]
      exact good
  | notifySends =>
      rw [notifySends_eq]
      exact good
  | notifyHandlers =>
      rw [postHandlers_eq]
      exact good
  | disconnect => exact absurd rfl whole
  | sampled =>
      unfold updateRtt
      split
      · exact xmitTimer_good good _
      · exact good
  | ackPredicted => exact ackPredicted_good good _
  | @syn p =>
      unfold handleSyn
      dsimp only
      cases s.cb.state <;> exact good
  | @reass p =>
      obtain ⟨_, _, _, _, _, _, result⟩ := s.TCP_REASS_eq p
      rw [result]
      exact good
  | ackAll => exact updateAckState_good good
  | fack =>
      unfold UdtCb.updateSndFack
      split <;> exact good
  | sacked =>
      unfold dropSndPkt
      dsimp only
      split <;> exact good
  | window => exact ackWindow_good good _
  | late => exact resetRexmtTimer_good (s := { s with cb.dupacks := 0 }) good
  | duplicate => exact resetRexmtTimer_good (s := { s with cb.dupacks := s.cb.dupacks + 1 }) good
  | fastRexmt =>
      exact doFastRexmt_good (s := { s with cb.dupacks := s.cb.dupacks + 1, cb.rtt := 0 }) good _
  | ackNew => exact ackNewData_good good _
  | fin =>
      unfold handleFin
      dsimp only
      split <;> split <;> exact good
  | receiving =>
      obtain ⟨pkt, next, _, result⟩ := s.doReceive_eq
      rw [result]
      exact good
  | rexmtTick running => exact good.tick running _
  | rexmtExceeded running => exact { good.tick running (s.cb.tRexmt - 1) with shift := le_rfl }
  | rexmtBegun running last within => exact rexmtBegun_good good running within
  | persistTick running => exact good.tickPersist running _
  | persistBegun running => exact persistBegun_good good running
  | @connect h =>
      obtain ⟨pkt, next, _, result⟩ := ({ s with sk.connectHandler := some h } : Endpoint).doReceive_eq
      rw [connecting, result]
      exact good
  | @connectBusy h =>
      obtain ⟨pkt, next, _, result⟩ := ({ s with sk.connectHandler := some h } : Endpoint).doReceive_eq
      rw [result]
      exact good
  | @accept h =>
      obtain ⟨pkt, next, _, result⟩ := ({ s with sk.acceptHandler := some h } : Endpoint).doReceive_eq
      rw [result]
      exact good
  | @acceptBusy h =>
      obtain ⟨pkt, next, _, result⟩ := ({ s with sk.acceptHandler := some h } : Endpoint).doReceive_eq
      rw [result]
      exact good
  | shutdown =>
      unfold closing
      dsimp only
      cases s.cb.state <;> exact good
  | mtu =>
      unfold UdtCb.setMtu
      split <;> exact good
  | close => exact { good with exclusive := .inl rfl }
  | _ => exact good

theorem init_clock_good (fack sndSeq rcvSeq : Word) (env : Env) :
    (init fack sndSeq rcvSeq env).clock.Good where
  exclusive := .inl rfl
  shift := Nat.zero_le _
  least := rfl
  current := Clock.range_bounds 6
  entered := by simp [clock, init]
  read := by simp [clock, init]

theorem run_clock_good {s : Endpoint} (es : List Event) (good : s.clock.Good) :
    (s.run es).clock.Good := by
  induction es generalizing s with
  | nil => exact good
  | cons e es ih => exact ih (s.step_keeps e (fun whole good block => clock_good block whole good) good)

/-- At most one of the two timers runs, `enter_persist` is only called with the retransmission
timer off, and the backoff shift and the timer's current value stay in their ranges. -/
theorem timers_exclusive (fack sndSeq rcvSeq : Word) (env : Env) (es : List Event) :
    let s := (init fack sndSeq rcvSeq env).run es
    (s.cb.tRexmt = 0 ∨ s.cb.tPersist = 0) ∧
      (∀ t ∈ s.persistEntered, t = 0) ∧
      (0 ≤ s.cb.rxtshift.toInt ∧ s.cb.rxtshift.toInt ≤ TCP_MAXRXTSHIFT.toInt) ∧
      (∀ i ∈ s.backoffRead, 0 ≤ i.toInt ∧ i.toInt < sTcpBackoff.length) ∧
      (TCPTV_MIN.toInt ≤ s.cb.rxtcur.toInt ∧ s.cb.rxtcur.toInt ≤ TCPTV_REXMTMAX.toInt) := by
  intro s
  have good : s.clock.Good := run_clock_good es (init_clock_good fack sndSeq rcvSeq env)
  have max : TCP_MAXRXTSHIFT.toNat = 12 := rfl
  have maxInt : TCP_MAXRXTSHIFT.toInt = 12 := rfl
  have size : sTcpBackoff.length = 13 := rfl
  refine ⟨good.exclusive, good.entered, ?_, ?_, good.current⟩
  · have shift : s.cb.rxtshift.toNat ≤ TCP_MAXRXTSHIFT.toNat := good.shift
    rw [Clock.toInt_small (by omega)]
    omega
  · intro i member
    have bound := good.read i member
    rw [Clock.toInt_small (by omega)]
    omega

end Endpoint
end UdtBoost
