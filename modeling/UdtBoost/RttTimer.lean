import UdtBoost.Outcome

/-! The timing of one segment at a time. Whatever an event does to it is a path of five changes, and
which of them an event can make is said here. -/
namespace UdtBoost

/-- The estimate, the ticks counted so far, and the segment they are counted for. -/
structure RttTimer where
  srtt : Half
  rttvar : Half
  rtt : Half
  rtseq : Word

def Endpoint.rttTimer (s : Endpoint) : RttTimer := ⟨s.cb.srtt, s.cb.rttvar, s.cb.rtt, s.cb.rtseq⟩

inductive Timing where
  | begin
  | stop
  | giveUp
  | sample
  | tick
  deriving DecidableEq

namespace RttTimer

inductive Change : RttTimer → Timing → RttTimer → Prop
  | begin {r : RttTimer} {startseq : Word} (off : r.rtt = 0) :
      Change r .begin { r with rtt := 1, rtseq := startseq }
  | stop {r : RttTimer} : Change r .stop { r with rtt := 0 }
  | giveUp {r : RttTimer} : Change r .giveUp
      { r with rttvar := r.rttvar + r.srtt.sshiftRight TCP_RTT_SHIFT, srtt := 0 }
  | sample {s : Endpoint} (on : s.cb.rtt ≠ 0) :
      Change s.rttTimer .sample (s.xmitTimer s.cb.rtt).rttTimer
  | tick {r : RttTimer} (on : r.rtt ≠ 0) : Change r .tick { r with rtt := r.rtt + 1 }

/-- A path of changes of some kinds. -/
abbrev Path (C : Timing → Prop) : RttTimer → RttTimer → Prop := Trace.Path Change fun _ => C

variable {C : Timing → Prop} {r r' : RttTimer}

theorem Path.of_eq (same : r' = r) : Path C r r' := by
  rw [same]
  exact .refl r

end RttTimer

namespace Endpoint

variable {s t : Endpoint} {p : UdtPacket} {e : Event} {C : Timing → Prop}

section Output

theorem raiseSndMax_rttTimer (s : Endpoint) (startseq : Word) :
    (s.raiseSndMax startseq).rttTimer =
      if seqGt s.cb.sndNxt s.cb.sndMax ∧ s.cb.rtt = 0
        then { s.rttTimer with rtt := 1, rtseq := startseq } else s.rttTimer := by
  unfold raiseSndMax
  by_cases above : seqGt s.cb.sndNxt s.cb.sndMax
  case neg =>
    rw [if_neg above, if_neg fun both => above both.1]
  case pos =>
    rw [if_pos above]
    dsimp only
    by_cases off : s.cb.rtt = 0
    · rw [if_pos off, if_pos ⟨above, off⟩]
      rfl
    · rw [if_neg off, if_neg fun both => off both.2]
      rfl

theorem armRexmt_rttTimer (s : Endpoint) : s.armRexmt.rttTimer = s.rttTimer := by
  obtain ⟨_, _, _, result⟩ := s.armRexmt_eq
  rw [result]
  rfl

/-- A segment is timed from its start if it raises `m_snd_max` and none is timed. -/
theorem outputAdvance_rttTimer (s : Endpoint) (flags : UChar) (len : Word) :
    ((s.outputRewind flags).outputAdvance flags len).rttTimer =
      if s.probing = false ∧ seqGt (s.sendEnd flags len) s.cb.sndMax ∧ s.cb.rtt = 0
        then { s.rttTimer with rtt := 1, rtseq := s.toConn.core.rewound flags s.cb.sndNxt }
        else s.rttTimer := by
  rw [outputRewind_eq]
  unfold outputAdvance sendEnd
  have probe := s.not_probing_iff
  generalize start : s.toConn.core.rewound flags s.cb.sndNxt = n
  split
  · next unforced =>
      rw [probe.mpr unforced, advanceNxt_eq, armRexmt_rttTimer, raiseSndMax_rttTimer]
      simp only [true_and, Bool.false_eq_true, if_false, ← BitVec.add_assoc]
      rfl
  · next forced =>
      have probing : ¬ s.probing = false := fun free => forced (probe.mp free)
      refine Eq.trans ?_ (if_neg fun all => probing all.1).symm
      split <;> rfl

theorem transmit_rttTimer (u : Endpoint) (pkt : Option UdtPacket) (raw : Word) (t : Transmission) :
    (u.transmit pkt raw t).rttTimer =
      if u.probing = false ∧ seqGt (u.sendEnd (u.sendFlags pkt) (Conn.pktLen pkt)) u.cb.sndMax ∧
          u.cb.rtt = 0
        then { u.rttTimer with
          rtt := 1, rtseq := u.toConn.core.rewound (u.sendFlags pkt) u.cb.sndNxt }
        else u.rttTimer := by
  have advanced := u.outputAdvance_rttTimer (u.sendFlags pkt) (Conn.pktLen pkt)
  rw [← advanced, transmit, outputSend]
  dsimp only
  generalize (u.outputRewind (u.sendFlags pkt)).outputAdvance (u.sendFlags pkt)
    (Conn.pktLen pkt) = x
  unfold outputSent
  dsimp only
  split <;> rfl

theorem ready_rttTimer {pkt : Option UdtPacket} (selects : s.Selects pkt t) :
    (t.ready pkt).rttTimer = s.rttTimer := by
  obtain ⟨_, _, result⟩ := t.ready_eq pkt
  rw [result]
  cases selects <;> rfl

theorem Output.rttTimer (block : Output s t) (free : C .begin) :
    RttTimer.Path C s.rttTimer t.rttTimer := by
  cases block with
  | idle =>
      refine .of_eq ?_
      unfold outputIdle UdtCb.slowStart
      split
      · split <;> rfl
      · rfl
  | consume =>
      obtain ⟨_, _, _, _, _, result⟩ := s.consumePendingData_spec
      rw [result]
      exact .refl _
  | @send u canSend raw pkt env t alive select =>
      have ready : ({ u.ready pkt with env } : Endpoint).rttTimer = s.rttTimer :=
        ready_rttTimer (outputSelect_selects select)
      rw [transmit_rttTimer, ready]
      split
      · next new =>
          have off : s.rttTimer.rtt = 0 := (congrArg RttTimer.rtt ready).symm.trans new.2.2
          exact .single (a := .begin) free (.begin off)
      · exact .refl _
  | @persist u canSend pkt select can =>
      obtain ⟨_, _, result⟩ := enterPersist_eq { u.ready pkt with cb.rxtshift := 0 }
      rw [result]
      exact .of_eq (ready_rttTimer (outputSelect_selects select))
  | wait select => exact .of_eq (ready_rttTimer (outputSelect_selects select))
  | record => exact .refl _

theorem output_rttTimer (s : Endpoint) (free : C .begin) :
    RttTimer.Path C s.rttTimer s.output.rttTimer :=
  s.output_blocks.keeps (I := fun t => RttTimer.Path C s.rttTimer t.rttTimer) (.refl _)
    fun _ _ path block => path.trans (block.rttTimer free)

theorem inner_rttTimer (path : BlockPath Tag.Inner s t) (free : C .begin) :
    RttTimer.Path C s.rttTimer t.rttTimer := by
  refine path.invariant (I := fun t => RttTimer.Path C s.rttTimer t.rttTimer) (.refl _) ?_
  rintro u _ x here rfl block
  refine here.trans ?_
  cases block with
  | output block => exact block.rttTimer free
  | read =>
      obtain ⟨_, _, _, _, _, _, result⟩ := u.recvDataLoop_spec u.sk.recvOps
      rw [result]
      exact .refl _
  | @delayed n =>
      obtain ⟨_, _, _, _, result⟩ :=
        ({ u with sk.delayWaits := n } : Endpoint).delayedLoop_spec u.sk.recvOps
      rw [result]
      exact .refl _

theorem onDisconnected_rttTimer (s : Endpoint) (free : C .begin) :
    RttTimer.Path C s.rttTimer s.onDisconnected.rttTimer := by
  unfold onDisconnected
  split
  · dsimp only
    rw [notifySends_eq]
    have read := inner_rttTimer (C := C) (recvData_blocks
      { s with posted := s.posted ++ s.sk.sendOps.map (.sent · .disconnected 0) }) free
    generalize recvData _ = x at read ⊢
    rw [postHandlers_eq]
    exact read
  · exact .refl _

theorem drop_rttTimer (s : Endpoint) (e : UdtError) (free : C .begin) :
    RttTimer.Path C s.rttTimer (s.drop e).rttTimer := by
  have failed : (if e ≠ .succeed then { s with cb.lastError := e } else s : Endpoint).rttTimer =
      s.rttTimer := by
    split <;> rfl
  have ended := onDisconnected_rttTimer (C := C)
    (if e ≠ .succeed then { s with cb.lastError := e } else s) free
  rw [failed] at ended
  exact ended

theorem drop_after (same : t.rttTimer = s.rttTimer) (e : UdtError) (free : C .begin) :
    RttTimer.Path C s.rttTimer (t.drop e).rttTimer :=
  same ▸ t.drop_rttTimer e free

end Output

section Packet

/-- The segment's measurement may end with the packet: it echoes the segment, or belongs to the
handshake, whose end is timed whatever the packet echoes. -/
def Samples (s : Endpoint) (p : UdtPacket) : Prop :=
  s.cb.rtt ≠ 0 ∧ (p.hdr.pseq = s.cb.rtseq ∨
    s.cb.state = .listen ∨ s.cb.state = .synSent ∨ s.cb.state = .synReceived)

instance (s : Endpoint) (p : UdtPacket) : Decidable (s.Samples p) :=
  inferInstanceAs (Decidable (_ ∧ _))

theorem xmitTimer_rtt (s : Endpoint) (rtt : Half) : (s.xmitTimer rtt).cb.rtt = 0 := by
  obtain ⟨_, _, _, result⟩ := s.xmitTimer_eq rtt
  rw [result]

theorem timed_cases (s : Endpoint) (p : UdtPacket) :
    (s.timed p).rttTimer = s.rttTimer ∨
      s.Samples p ∧ RttTimer.Change s.rttTimer .sample (s.timed p).rttTimer ∧
        (s.timed p).cb.rtt = 0 := by
  unfold timed updateRtt
  split
  · next echoed =>
      refine .inr ⟨⟨echoed.1, .inl echoed.2⟩, ?_, xmitTimer_rtt _ _⟩
      exact .sample (s := { s with cb.pseq := p.hdr.seq, cb.idle := 0, cb.tKeep := sKeepidle })
        echoed.1
  · exact .inl rfl

theorem synced_rttTimer (s : Endpoint) (p : UdtPacket) :
    (s.synced p).rttTimer = (s.timed p).rttTimer := by
  unfold synced
  split
  · obtain ⟨_, _, _, result⟩ := (s.entered p).handleSyn_eq p
    rw [result]
    split
    · split <;> rfl
    · rfl
  · rfl

theorem synced_handshake (state : (s.synced p).cb.state = .synReceived) :
    s.cb.state = .listen ∨ s.cb.state = .synSent ∨ s.cb.state = .synReceived := by
  unfold synced at state
  split at state
  · obtain ⟨_, _, _, result⟩ := (s.entered p).handleSyn_eq p
    rw [result] at state
    split at state
    · next handshake => rwa [s.entered_state p] at handshake
    · exact .inr (.inr ((s.entered_state p).symm.trans state))
  · exact .inr (.inr ((s.entered_state p).symm.trans state))

/-- The SYN of a handshake that ends is still timed if it was when the packet came. -/
theorem synced_samples (on : (s.synced p).cb.rtt ≠ 0)
    (state : (s.synced p).cb.state = .synReceived) : s.Samples p := by
  refine ⟨?_, .inr (synced_handshake state)⟩
  have same : (s.synced p).cb.rtt = (s.timed p).cb.rtt :=
    congrArg RttTimer.rtt (s.synced_rttTimer p)
  rcases s.timed_cases p with kept | ⟨_, _, off⟩
  · have kept : (s.timed p).cb.rtt = s.cb.rtt := congrArg RttTimer.rtt kept
    rwa [← kept, ← same]
  · exact absurd (same.trans off) on

theorem synced_path (s : Endpoint) (p : UdtPacket) (free : s.Samples p → C .sample) :
    RttTimer.Path C s.rttTimer (s.synced p).rttTimer := by
  rw [synced_rttTimer]
  rcases s.timed_cases p with same | ⟨samples, change, _⟩
  · exact .of_eq same
  · exact .single (a := .sample) (free samples) change

theorem stored_rttTimer (s : Endpoint) (p : UdtPacket) : (s.stored p).rttTimer = s.rttTimer := by
  obtain ⟨_, _, _, _, _, _, result⟩ := s.stored_eq p
  rw [result]
  rfl

theorem updateAckState_rttTimer (s : Endpoint)
    (free : s.cb.rtt ≠ 0 → s.cb.state = .synReceived → C .sample) :
    RttTimer.Path C s.rttTimer s.updateAckState.rttTimer := by
  have handshake : RttTimer.Path C s.rttTimer s.ackHandshake.rttTimer := by
    unfold ackHandshake
    split
    · exact .refl _
    · next state =>
        obtain ⟨_, _, _, result⟩ :=
          ({ s with cb.state := .established } : Endpoint).timeHandshake.onConnected_eq
        rw [result]
        change RttTimer.Path C s.rttTimer
          ({ s with cb.state := .established } : Endpoint).timeHandshake.rttTimer
        unfold timeHandshake
        split
        · next on =>
            refine .single (a := .sample) (free on state) ?_
            exact .sample (s := { s with cb.state := .established }) on
        · exact .refl _
    · exact .refl _
  have fin : s.ackHandshake.ackFin.rttTimer = s.ackHandshake.rttTimer := by
    obtain ⟨_, _, _, _, _, _, result, _⟩ := s.ackHandshake.ackFin_eq
    rw [result]
    rfl
  rw [updateAckState, fin]
  exact handshake

theorem acked_rttTimer (s : Endpoint) (p : UdtPacket)
    (free : s.cb.rtt ≠ 0 → s.cb.state = .synReceived → C .sample) :
    RttTimer.Path C s.rttTimer (s.acked p).rttTimer := by
  have first : RttTimer.Path C s.rttTimer
      (if s.cb.sndMax = p.hdr.ack then s.updateAckState else s).rttTimer := by
    split
    · exact s.updateAckState_rttTimer free
    · exact .refl _
  unfold acked
  dsimp only
  split
  · obtain ⟨_, _, _, _, _, _, result⟩ := OptionSteps.eq (handleOptions_steps
      (if s.cb.sndMax = p.hdr.ack then s.updateAckState else s) p)
    rw [result]
    exact first
  · exact first

theorem doFastRexmt_rttTimer (s : Endpoint) (ack : Word) (free : C .begin) :
    RttTimer.Path C s.rttTimer (s.doFastRexmt ack).rttTimer := by
  obtain ⟨_, _, _, _, _, _, _, _, result, _⟩ := s.beginFastRexmt_eq ack
  have begun : (s.handlePacketLost.beginFastRexmt ack).rttTimer = s.rttTimer := by
    rw [result]
    rfl
  have sent := output_rttTimer (C := C) (s.handlePacketLost.beginFastRexmt ack) free
  rw [begun] at sent
  rw [doFastRexmt]
  dsimp only
  generalize (s.handlePacketLost.beginFastRexmt ack).output = x at sent ⊢
  exact sent

theorem resetRexmtTimer_rttTimer (s : Endpoint) :
    ({ s with cb := s.cb.resetRexmtTimer } : Endpoint).rttTimer = s.rttTimer := by
  obtain ⟨_, _, result⟩ := resetRexmtTimer_eq s.cb
  rw [result]
  rfl

theorem ackDuplicate_rttTimer (s : Endpoint) (ti : UdtHdr) (begins : C .begin) (stops : C .stop) :
    RttTimer.Path C s.rttTimer (s.ackDuplicate ti).2.rttTimer := by
  rw [ackDuplicate]
  dsimp only
  split
  · obtain ⟨_, _, result⟩ := s.ackWindow_eq (ti.win.setWidth 32)
    exact .of_eq ((congrArg rttTimer result).trans rfl)
  split
  · exact .of_eq (resetRexmtTimer_rttTimer { s with cb.dupacks := 0 })
  split
  · have stopped : RttTimer.Path C s.rttTimer
        ({ s with cb.dupacks := s.cb.dupacks + 1, cb.rtt := 0 } : Endpoint).rttTimer :=
      .single (a := .stop) stops .stop
    exact stopped.trans (doFastRexmt_rttTimer _ _ begins)
  split
  · exact .refl _
  · exact .of_eq (resetRexmtTimer_rttTimer { s with cb.dupacks := s.cb.dupacks + 1 })

theorem handleAck_rttTimer (s : Endpoint) (p : UdtPacket) (begins : C .begin) (stops : C .stop)
    (free : s.cb.rtt ≠ 0 → s.cb.state = .synReceived → C .sample) :
    RttTimer.Path C s.rttTimer (s.handleAck p).2.rttTimer := by
  have acked := s.acked_rttTimer p free
  have outcome := s.handleAck_outcome p
  generalize s.handleAck p = result at outcome ⊢
  cases outcome with
  | old => exact .refl _
  | beyond => exact .refl _
  | duplicate => exact acked.trans (ackDuplicate_rttTimer _ _ begins stops)
  | new =>
      obtain ⟨_, _, _, _, _, _, _, _, _, result⟩ := (s.acked p).ackNewData_eq p.hdr
      rw [result]
      exact acked

theorem handleFin_rttTimer (s : Endpoint) : s.handleFin.rttTimer = s.rttTimer := by
  obtain ⟨_, _, result⟩ := s.handleFin_eq
  rw [result]
  split <;> rfl

theorem inputSegment_rttTimer (s : Endpoint) (p : UdtPacket) (begins : C .begin) (stops : C .stop)
    (free : s.cb.rtt ≠ 0 → s.cb.state = .synReceived → C .sample) :
    RttTimer.Path C s.rttTimer (s.inputSegment p).rttTimer := by
  have here : RttTimer.Path C s.rttTimer ((s.stored p).handleAck p).2.rttTimer := by
    rw [← s.stored_rttTimer p]
    refine handleAck_rttTimer _ p begins stops ?_
    obtain ⟨_, _, _, _, _, _, result⟩ := s.stored_eq p
    rw [result]
    exact free
  rw [inputSegment_eq]
  split
  · split
    · rw [handleFin_rttTimer]
      exact here
    · exact here
  · split
    · rw [handleFin_rttTimer, stored_rttTimer]
      exact .refl _
    · rw [stored_rttTimer]
      exact .refl _

theorem inputChecked_rttTimer (s : Endpoint) (p : UdtPacket) (begins : C .begin) (stops : C .stop)
    (free : s.Samples p → C .sample) :
    RttTimer.Path C s.rttTimer (s.inputChecked p).rttTimer := by
  have synced := s.synced_path p free
  have timed : RttTimer.Path C s.rttTimer (s.timed p).rttTimer := s.synced_rttTimer p ▸ synced
  have outcome := s.inputChecked_outcome p
  generalize s.inputChecked p = x at outcome ⊢
  cases outcome with
  | ignored => exact timed
  | hangup => exact timed
  | outside => exact timed
  | ackPredicted =>
      obtain ⟨_, _, _, _, _, _, _, _, result⟩ := (s.entered p).ackPredicted_eq p.hdr.ack
      have acked : RttTimer.Path C s.rttTimer ((s.entered p).ackPredicted p.hdr.ack).rttTimer := by
        rw [result]
        exact timed
      unfold outputData
      split
      · exact acked.trans (output_rttTimer _ begins)
      · exact acked
  | storePredicted => exact timed
  | synRefused => exact synced
  | segment =>
      refine synced.trans (inputSegment_rttTimer _ _ begins stops ?_)
      exact fun on state => free (synced_samples on state)

theorem commitNotifies_rttTimer (s : Endpoint) (begins : C .begin) :
    RttTimer.Path C s.rttTimer s.commitNotifies.rttTimer := by
  have reset : ∀ x : Endpoint, x.commitReset.rttTimer = x.rttTimer := by
    intro x
    unfold commitReset
    split <;> rfl
  have read : ∀ x : Endpoint, RttTimer.Path C x.rttTimer x.commitRead.rttTimer := by
    intro x
    have readable := inner_rttTimer x.notifyReadable_blocks begins
    unfold commitRead
    split
    · exact readable
    · exact .refl _
  have write : ∀ x : Endpoint, RttTimer.Path C x.rttTimer x.commitWrite.rttTimer := by
    intro x
    have written := inner_rttTimer x.onWritable_blocks begins
    unfold commitWrite
    split
    · exact written
    · exact .refl _
  have drop : ∀ x : Endpoint, RttTimer.Path C x.rttTimer x.commitDrop.rttTimer := by
    intro x
    unfold commitDrop
    split
    · exact x.drop_rttTimer _ begins
    · exact .refl _
  have output := inner_rttTimer s.commitOutput_blocks begins
  unfold commitNotifies
  refine output.trans (Trace.Path.trans ?_ (((read _).trans (write _)).trans (drop _)))
  exact RttTimer.Path.of_eq (reset _)

end Packet

section Events

theorem rexmtBegun_rttTimer (s : Endpoint) (stops : C .stop) (gives : C .giveUp) :
    RttTimer.Path C s.rttTimer s.rexmtBegun.rttTimer := by
  have lost : ∀ x : Endpoint, x.handlePacketLost.clearSndBufFlags.rttTimer = x.rttTimer := by
    intro x
    obtain ⟨_, _, _, _, _, result⟩ := x.handlePacketLost_eq
    rw [result]
    rfl
  unfold rexmtBegun
  dsimp only
  rw [lost]
  unfold backoffRexmt
  dsimp only
  split
  · have given : RttTimer.Path C s.rttTimer
        { s.rttTimer with
          rttvar := s.cb.rttvar + s.cb.srtt.sshiftRight TCP_RTT_SHIFT, srtt := 0 } :=
      .single (a := .giveUp) gives .giveUp
    exact given.tail .stop stops .stop
  · exact .single (a := .stop) stops .stop

theorem slowRexmt_rttTimer (s : Endpoint) (begins : C .begin) (stops : C .stop)
    (gives : C .giveUp) : RttTimer.Path C s.rttTimer s.slowRexmt.rttTimer := by
  unfold slowRexmt
  split
  · exact .refl _
  dsimp only
  split
  · unfold rexmtExpired
    dsimp only
    split
    · exact drop_after (by rfl) _ begins
    · exact (s.rexmtBegun_rttTimer stops gives).trans (output_rttTimer s.rexmtBegun begins)
  · exact .refl _

theorem slowPersist_rttTimer (s : Endpoint) (begins : C .begin) :
    RttTimer.Path C s.rttTimer s.slowPersist.rttTimer := by
  unfold slowPersist
  split
  · exact .refl _
  dsimp only
  split
  · change RttTimer.Path C s.rttTimer ({ s.persistBegun.output with cb.force := false } :
      Endpoint).rttTimer
    have begun : s.persistBegun.rttTimer = s.rttTimer := by
      obtain ⟨_, _, _, _, _, result, _⟩ := s.persistBegun_eq
      rw [result]
      rfl
    have sent := output_rttTimer (C := C) s.persistBegun begins
    rw [begun] at sent
    generalize s.persistBegun.output = x at sent ⊢
    exact sent
  · exact .refl _

theorem slowKeep_rttTimer (s : Endpoint) (begins : C .begin) :
    RttTimer.Path C s.rttTimer s.slowKeep.rttTimer := by
  unfold slowKeep
  split
  · exact .refl _
  dsimp only
  split
  · unfold keepExpired
    split
    · exact drop_after (by rfl) _ begins
    split
    · split
      · exact drop_after (by rfl) _ begins
      · exact .refl _
    · exact .refl _
  · exact .refl _

theorem slow2msl_rttTimer (s : Endpoint) (begins : C .begin) :
    RttTimer.Path C s.rttTimer s.slow2msl.rttTimer := by
  unfold slow2msl
  split
  · exact .refl _
  dsimp only
  split
  · exact drop_after (by rfl) _ begins
  · exact .refl _

/-- A tick may give up the estimate before it is counted. -/
theorem handleSlowTimo_rttTimer (s : Endpoint) (begins : C .begin) (stops : C .stop)
    (gives : C .giveUp) :
    ∃ r, RttTimer.Path C s.rttTimer r ∧
      s.handleSlowTimo.rttTimer = { r with rtt := if r.rtt ≠ 0 then r.rtt + 1 else r.rtt } := by
  have timers : RttTimer.Path C s.rttTimer s.slowRexmt.slowPersist.slowKeep.slow2msl.rttTimer :=
    (((s.slowRexmt_rttTimer begins stops gives).trans (slowPersist_rttTimer _ begins)).trans
      (slowKeep_rttTimer _ begins)).trans (slow2msl_rttTimer _ begins)
  unfold handleSlowTimo
  generalize s.slowRexmt.slowPersist.slowKeep.slow2msl = x at timers ⊢
  exact ⟨x.rttTimer, timers, rfl⟩

theorem doReceive_rttTimer (s : Endpoint) : s.doReceive.rttTimer = s.rttTimer := by
  obtain ⟨_, _, _, result⟩ := s.doReceive_eq
  rw [result]
  rfl

theorem Requested.rttTimer {a : Tag} (requested : Requested a s t) (begins : C .begin)
    (first : ∀ m, Block s a m → m.rttTimer = s.rttTimer) :
    RttTimer.Path C s.rttTimer t.rttTimer := by
  obtain ⟨m, block, path⟩ := requested
  have inner := inner_rttTimer path begins
  rwa [first m block] at inner

theorem handleReceive_rttTimer (s : Endpoint) (hdr : UdtHdr) (mem : List UChar) (n : Nat)
    (begins : C .begin) (stops : C .stop)
    (free : ∀ p ∈ s.arriving (.packet hdr mem n), s.Samples p → C .sample) :
    RttTimer.Path C s.rttTimer (s.handleReceive hdr mem n).rttTimer := by
  rcases s.handleReceive_cases hdr mem n with (same | same) |
    ⟨buffer, alive, waits, good, result⟩
  · rw [same]
    exact .refl _
  · rw [same, doReceive_rttTimer]
    exact .refl _
  rw [result]
  have here : hostPacket hdr mem buffer ∈ s.arriving (.packet hdr mem n) := by
    rw [Endpoint.arriving, waits, Option.bind_some, if_pos ⟨alive, good⟩]
    rfl
  have checked := s.inputChecked_rttTimer (hostPacket hdr mem buffer) begins stops (free _ here)
  have committed := checked.trans (commitNotifies_rttTimer _ begins)
  generalize (s.inputChecked (hostPacket hdr mem buffer)).commitNotifies = x at committed ⊢
  have received : x.received.rttTimer = x.rttTimer := by
    unfold Endpoint.received pktConsumed
    cases x.cb.flags.packetConsumed
    · exact doReceive_rttTimer x
    · exact doReceive_rttTimer { x with cb.flags.packetConsumed := false, sk.rcvPkt := none }
  rw [received]
  exact committed

/-- Outside the slow timer a measurement is begun, stopped or, by a packet, ended. -/
theorem step_rttTimer (other : e ≠ .slowTimo) (begins : C .begin) (stops : C .stop)
    (free : ∀ p ∈ s.arriving e, s.Samples p → C .sample) :
    RttTimer.Path C s.rttTimer (s.step e).rttTimer := by
  cases e with
  | packet hdr mem n => exact s.handleReceive_rttTimer hdr mem n begins stops free
  | slowTimo => exact absurd rfl other
  | connect h =>
      by_cases alive : s.sk.nextLayer = true
      · refine (s.connect_blocks h alive).rttTimer begins ?_
        intro m block
        cases block with
        | connect =>
            obtain ⟨_, _, _, result⟩ := s.connecting_eq h
            rw [result]
            rfl
        | connectBusy => exact doReceive_rttTimer _
      · rw [step, asyncConnect, if_neg alive]
        exact .refl _
  | accept h =>
      by_cases alive : s.sk.nextLayer = true
      · have block := s.accept_blocks h alive
        rw [step]
        generalize s.asyncAccept h = x at block ⊢
        cases block with
        | accept => exact .of_eq (doReceive_rttTimer { s with sk.acceptHandler := some h })
        | acceptBusy => exact .of_eq (doReceive_rttTimer { s with sk.acceptHandler := some h })
      · rw [step, asyncAccept, if_neg alive]
        exact .refl _
  | fastTimo =>
      rw [step, fastTimer]
      unfold handleFastTimo
      split
      · split
        · exact output_rttTimer
            { s with cb.flags := { s.cb.flags with delack := false, acknow := true } } begins
        · exact .refl _
      · exact .refl _
  | send op =>
      by_cases alive : s.sk.nextLayer = true
      · refine (s.send_blocks op alive).rttTimer begins ?_
        intro m block
        cases block <;> rfl
      · rw [step, asyncSend, if_pos (by simpa using alive)]
        exact .refl _
  | receive op =>
      by_cases alive : s.sk.nextLayer = true
      · refine (s.receive_blocks op alive).rttTimer begins ?_
        intro m block
        cases block <;> rfl
      · rw [step, asyncReceive, if_pos (by simpa using alive)]
        exact .refl _
  | shutdown h =>
      by_cases alive : s.sk.nextLayer = true
      · refine (s.shutdown_blocks h alive).rttTimer begins ?_
        intro m block
        cases block
        rw [closing_eq]
        rfl
      · rw [step, asyncShutdown, if_neg alive]
        exact .refl _
  | delayTimer aborted =>
      rw [step]
      unfold handleDelayRecvOperation
      split
      · exact .refl _
      dsimp only
      split
      · exact .refl _
      · obtain ⟨_, _, _, _, result⟩ := ({ s with sk.delayWaits := s.sk.delayWaits - 1 } :
          Endpoint).delayedLoop_spec s.sk.recvOps
        rw [result]
        exact .refl _
  | receiveError value =>
      rw [step, handleReceiveError_eq]
      split
      · exact onDisconnected_rttTimer { s with sk.rcvPkt := none } begins
      · exact .refl _
  | mtu =>
      refine .of_eq ?_
      rw [step]
      unfold handleMtu UdtCb.setMtu
      split
      · split <;> rfl
      · rfl
  | close =>
      refine .of_eq ?_
      rw [step]
      unfold Endpoint.close
      split <;> rfl
  | _ => exact .refl _

end Events

end Endpoint

end UdtBoost
