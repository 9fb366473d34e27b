import UdtBoost.Effects

/-! Received data is acknowledged. Every block of code sends the current `m_rcv_nxt`, leaves an
acknowledgement owed, or moves nothing that would have to be acknowledged. -/
namespace UdtBoost

namespace Endpoint

/-- The acknowledgement number of the last segment `output` sent. -/
def lastAck (s : Endpoint) : Option Word := s.sent.getLast?.map (·.hdr.ack)

/-- The state is SYN_RECEIVED or a later one. -/
def Synchronized (s : Endpoint) : Prop := TcpState.synReceived.value ≤ s.cb.state.value

instance (s : Endpoint) : Decidable s.Synchronized := inferInstanceAs (Decidable (_ ≤ _))

def AckOwed (s : Endpoint) : Prop := s.cb.flags.delack = true ∨ s.cb.flags.acknow = true

/-- Nothing was sent and nothing received. -/
structure AckKept (s t : Endpoint) : Prop where
  sent : t.sent = s.sent
  rcvNxt : t.cb.rcvNxt = s.cb.rcvNxt
  owed : s.AckOwed → t.AckOwed
  synchronized : t.Synchronized → s.Synchronized

/-- What happened to the acknowledgements between two states. -/
structure AckTracked (s t : Endpoint) : Prop where
  grows : s.sent.length ≤ t.sent.length
  outcome : (s.sent.length < t.sent.length ∧ t.lastAck = some t.cb.rcvNxt) ∨ t.AckOwed ∨ AckKept s t

theorem AckKept.tracked {s t : Endpoint} (kept : AckKept s t) : AckTracked s t :=
  ⟨by rw [kept.sent], .inr (.inr kept)⟩

theorem AckKept.of_state {s t : Endpoint} (sent : t.sent = s.sent)
    (rcvNxt : t.cb.rcvNxt = s.cb.rcvNxt) (flags : s.AckOwed → t.AckOwed)
    (state : t.cb.state = s.cb.state) : AckKept s t :=
  ⟨sent, rcvNxt, flags, fun later => by unfold Synchronized at *; rwa [← state]⟩

theorem AckTracked.refl (s : Endpoint) : AckTracked s s := AckKept.tracked ⟨rfl, rfl, id, id⟩

theorem AckTracked.owing {s t : Endpoint} (sent : t.sent = s.sent) (owed : t.AckOwed) :
    AckTracked s t :=
  ⟨by rw [sent], .inr (.inl owed)⟩

theorem AckTracked.trans {s t u : Endpoint} (first : AckTracked s t) (second : AckTracked t u) :
    AckTracked s u := by
  refine ⟨first.grows.trans second.grows, ?_⟩
  rcases second.outcome with ⟨more, acked⟩ | owed | kept
  · exact .inl ⟨first.grows.trans_lt more, acked⟩
  · exact .inr (.inl owed)
  · rcases first.outcome with ⟨more, acked⟩ | owed | kept'
    · refine .inl ⟨by rwa [kept.sent], ?_⟩
      rw [lastAck, kept.sent, kept.rcvNxt]
      exact acked
    · exact .inr (.inl (kept.owed owed))
    · exact .inr (.inr ⟨kept.sent.trans kept'.sent, kept.rcvNxt.trans kept'.rcvNxt,
        kept.owed ∘ kept'.owed, kept'.synchronized ∘ kept.synchronized⟩)

/-- What choosing a packet leaves alone. -/
theorem Selects.sent {s u : Endpoint} {pkt : Option UdtPacket} (selects : s.Selects pkt u) :
    u.sent = s.sent ∧ u.cb.rcvNxt = s.cb.rcvNxt ∧ u.cb.flags = s.cb.flags ∧
      u.cb.state = s.cb.state := by
  cases selects <;> exact ⟨rfl, rfl, rfl, rfl⟩

theorem ready_sent {s u : Endpoint} {pkt : Option UdtPacket} (selects : s.Selects pkt u) :
    (u.ready pkt).sent = s.sent ∧ (u.ready pkt).cb.rcvNxt = s.cb.rcvNxt ∧
      (u.ready pkt).cb.flags = s.cb.flags ∧ (u.ready pkt).cb.state = s.cb.state := by
  obtain ⟨tPersist, rxtshift, result⟩ := u.ready_eq pkt
  rw [result]
  exact selects.sent

theorem Output.tracked {s t : Endpoint} (block : Output s t) : AckTracked s t := by
  cases block with
  | idle =>
      unfold outputIdle UdtCb.slowStart
      split
      · split
        · exact AckKept.tracked ⟨rfl, rfl, id, id⟩
        · exact .refl s
      · exact .refl s
  | consume =>
      obtain ⟨ops, rest, b, _, _, result⟩ := s.consumePendingData_spec
      rw [result]
      exact AckKept.tracked ⟨rfl, rfl, id, id⟩
  | @send u canSend raw pkt env t alive select must before dgram =>
      obtain ⟨sent, rcvNxt, _, _⟩ := ready_sent (outputSelect_selects select)
      have ack := (outputSend_hdr { u.ready pkt with env } ((u.ready pkt).sendFlags pkt) pkt raw).2.1
      obtain ⟨_, _, _, _, _, _, _, result⟩ := transmit_eq { u.ready pkt with env } pkt raw t
      have longer : s.sent.length < ((u.ready pkt).sent ++ [t]).length := by simp [sent]
      rw [result]
      refine ⟨longer.le, .inl ⟨longer, ?_⟩⟩
      rw [lastAck, List.getLast?_concat, Option.map_some, Transmission.hdr, dgram, ack]
  | @persist u canSend pkt select can =>
      obtain ⟨sent, rcvNxt, flags, state⟩ := ready_sent (outputSelect_selects select)
      have ready : AckKept s { u.ready pkt with cb.rxtshift := 0 } :=
        .of_state sent rcvNxt (by unfold AckOwed; dsimp only; rw [flags]; exact id) state
      obtain ⟨tPersist, shift, result⟩ := enterPersist_eq { u.ready pkt with cb.rxtshift := 0 }
      rw [result]
      exact AckKept.tracked ⟨ready.sent, ready.rcvNxt, ready.owed, ready.synchronized⟩
  | @wait u canSend pkt select =>
      obtain ⟨sent, rcvNxt, flags, state⟩ := ready_sent (outputSelect_selects select)
      exact (AckKept.of_state sent rcvNxt (by unfold AckOwed; rw [flags]; exact id) state).tracked
  | record => exact AckKept.tracked ⟨rfl, rfl, id, id⟩

theorem output_tracked (s : Endpoint) : AckTracked s s.output :=
  s.output_blocks.keeps (I := AckTracked s) (.refl s) fun _ _ first block => first.trans block.tracked

theorem doFastRexmt_tracked (s : Endpoint) (ack : Word) : AckTracked s (s.doFastRexmt ack) := by
  obtain ⟨first, second, third, cwnd, env, data, pkts, log, result, _⟩ := s.beginFastRexmt_eq ack
  have begun : AckKept s (s.handlePacketLost.beginFastRexmt ack) := by
    rw [result]
    exact ⟨rfl, rfl, id, id⟩
  have sent := output_tracked (s.handlePacketLost.beginFastRexmt ack)
  rw [doFastRexmt]
  dsimp only
  generalize s.handlePacketLost.beginFastRexmt ack = x at begun sent ⊢
  have restored : AckKept x.output
      { x.output with cb.sndCwnd := s.handlePacketLost.cb.sndCwnd, cb.sndNxt := s.cb.sndNxt } :=
    ⟨rfl, rfl, id, id⟩
  exact (begun.tracked.trans sent).trans restored.tracked

theorem TCP_REASS_tracked (s : Endpoint) (p : UdtPacket) : AckTracked s (s.TCP_REASS p) := by
  have logged : (s.TCP_REASS p).sent = s.sent := by
    obtain ⟨_, _, _, _, _, _, result⟩ := s.TCP_REASS_eq p
    rw [result]
  by_cases refused : s.TCP_REASS p = s
  · rw [refused]
    exact .refl s
  · refine .owing logged ?_
    unfold TCP_REASS at refused ⊢
    split
    · next direct =>
        rw [if_pos direct] at refused
        split
        · exact .inl rfl
        · next full =>
            simp [full] at refused
    · exact .inr rfl

theorem handleFin_tracked (s : Endpoint) : AckTracked s s.handleFin := by
  obtain ⟨t2msl, drop, result⟩ := s.handleFin_eq
  rw [result]
  split
  · refine AckKept.tracked ⟨rfl, rfl, id, ?_⟩
    unfold Synchronized
    dsimp only
    cases s.cb.state <;> simp [TcpState.finned, TcpState.value]
  · exact .owing rfl (.inr rfl)

/-- What every block of code does to the acknowledgements. -/
theorem block_ackTracked {s t : Endpoint} {a : Tag} (block : Block s a t) (whole : a ≠ .disconnect) :
    AckTracked s t := by
  have kept : ∀ {x : Endpoint}, x.sent = s.sent → x.cb.rcvNxt = s.cb.rcvNxt →
      x.cb.flags.delack = s.cb.flags.delack → x.cb.flags.acknow = s.cb.flags.acknow →
      x.cb.state = s.cb.state → AckTracked s x := by
    intro x sent rcvNxt delack acknow state
    refine (AckKept.of_state sent rcvNxt ?_ state).tracked
    unfold AckOwed
    rw [delack, acknow]
    exact id
  cases block with
  | output block => exact block.tracked
  | read =>
      obtain ⟨done, rest, rb, waits, _, _, result⟩ := s.recvDataLoop_spec s.sk.recvOps
      rw [result]
      exact kept rfl rfl rfl rfl rfl
  | @delayed n =>
      obtain ⟨done, rest, rb, _, result⟩ :=
        ({ s with sk.delayWaits := n } : Endpoint).delayedLoop_spec s.sk.recvOps
      rw [result]
      exact kept rfl rfl rfl rfl rfl
  | notifySends =>
      rw [notifySends_eq]
      exact kept rfl rfl rfl rfl rfl
  | notifyHandlers =>
      rw [postHandlers_eq]
      exact kept rfl rfl rfl rfl rfl
  | disconnect => exact absurd rfl whole
  | sampled =>
      unfold updateRtt
      split
      · obtain ⟨srtt, rttvar, rxtcur, result⟩ := s.xmitTimer_eq s.cb.rtt
        rw [result]
        exact kept rfl rfl rfl rfl rfl
      · exact .refl s
  | owed => exact .owing rfl (.inr rfl)
  | @ackPredicted p =>
      obtain ⟨_, _, fack, tRexmt, need, _, _, _, result⟩ := s.ackPredicted_eq p.hdr.ack
      rw [result]
      exact kept rfl rfl rfl rfl rfl
  | storePredicted => exact .owing rfl (.inl rfl)
  | @syn p =>
      obtain ⟨wl1, wl2, tKeep, result⟩ := s.handleSyn_eq p
      rw [result]
      split <;> exact .owing rfl (.inr rfl)
  | reass => exact TCP_REASS_tracked s _
  | ackAll =>
      obtain ⟨_, _, _, _, _, _, _, _, _, drop, _, _, _, _, result⟩ := s.updateAckState_eq
      by_cases half : s.cb.state = .synSent
      · rw [result]
        exact .owing rfl (.inr (by simp [half]))
      · rw [result]
        refine AckKept.tracked ⟨rfl, rfl, ?_, ?_⟩
        · simp [AckOwed, half]
        · unfold Synchronized
          dsimp only
          cases state : s.cb.state <;> cases s.cb.flags.sentfin <;>
            simp_all [TcpState.acked, TcpState.value]
  | fack =>
      unfold UdtCb.updateSndFack
      split <;> exact kept rfl rfl rfl rfl rfl
  | sacked =>
      unfold dropSndPkt
      dsimp only
      split <;> exact kept rfl rfl rfl rfl rfl
  | @window p =>
      obtain ⟨most, tRexmt, result⟩ := s.ackWindow_eq (p.hdr.win.setWidth 32)
      rw [result]
      exact kept rfl rfl rfl rfl rfl
  | late =>
      obtain ⟨tRexmt, need, result⟩ := resetRexmtTimer_eq { s.cb with dupacks := 0 }
      rw [result]
      exact kept rfl rfl rfl rfl rfl
  | duplicate =>
      obtain ⟨tRexmt, need, result⟩ := resetRexmtTimer_eq { s.cb with dupacks := s.cb.dupacks + 1 }
      rw [result]
      exact kept rfl rfl rfl rfl rfl
  | fastRexmt =>
      have counted : AckTracked s { s with cb.dupacks := s.cb.dupacks + 1, cb.rtt := 0 } :=
        kept rfl rfl rfl rfl rfl
      exact counted.trans (doFastRexmt_tracked _ _)
  | @ackNew p =>
      obtain ⟨_, _, _, _, _, _, _, _, _, result⟩ := s.ackNewData_eq p.hdr
      rw [result]
      exact kept rfl rfl rfl rfl rfl
  | fin => exact handleFin_tracked s
  | dropped =>
      refine AckKept.tracked ⟨rfl, rfl, id, fun later => ?_⟩
      simp [Synchronized, TcpState.value] at later
  | receiving =>
      obtain ⟨pkt, next, _, result⟩ := s.doReceive_eq
      rw [result]
      exact kept rfl rfl rfl rfl rfl
  | delackDue due => exact .owing rfl (.inr rfl)
  | rexmtBegun =>
      obtain ⟨_, _, _, _, _, _, _, _, _, _, result⟩ := s.rexmtBegun_eq
      rw [result]
      exact kept rfl rfl rfl rfl rfl
  | persistBegun =>
      obtain ⟨_, _, _, _, _, result, _⟩ := s.persistBegun_eq
      rw [result]
      exact kept rfl rfl rfl rfl rfl
  | @connect h =>
      obtain ⟨pkt, next, _, result⟩ := ({ s with sk.connectHandler := some h } : Endpoint).doReceive_eq
      rw [connecting, result]
      refine AckKept.tracked ⟨rfl, rfl, id, fun later => ?_⟩
      simp [Synchronized, TcpState.value, UdtCb.tcpSendseqinit] at later
  | @connectBusy h =>
      obtain ⟨pkt, next, _, result⟩ := ({ s with sk.connectHandler := some h } : Endpoint).doReceive_eq
      rw [result]
      exact kept rfl rfl rfl rfl rfl
  | @accept h =>
      obtain ⟨pkt, next, _, result⟩ := ({ s with sk.acceptHandler := some h } : Endpoint).doReceive_eq
      rw [result]
      refine AckKept.tracked ⟨rfl, rfl, id, fun later => ?_⟩
      simp [Synchronized, TcpState.value] at later
  | @acceptBusy h =>
      obtain ⟨pkt, next, _, result⟩ := ({ s with sk.acceptHandler := some h } : Endpoint).doReceive_eq
      rw [result]
      exact kept rfl rfl rfl rfl rfl
  | shutdown =>
      unfold closing
      dsimp only
      split
      · next state =>
          refine AckKept.tracked ⟨rfl, rfl, id, fun _ => ?_⟩
          simp [Synchronized, state, TcpState.value]
      · next state =>
          refine AckKept.tracked ⟨rfl, rfl, id, fun _ => ?_⟩
          simp [Synchronized, state, TcpState.value]
      · exact kept rfl rfl rfl rfl rfl
  | mtu =>
      unfold UdtCb.setMtu
      split <;> exact kept rfl rfl rfl rfl rfl
  | close =>
      refine AckKept.tracked ⟨rfl, rfl, id, fun later => ?_⟩
      simp [Synchronized, closed, TcpState.value, UdtCb.canceltimers] at later
  | _ => exact kept rfl rfl rfl rfl rfl

/-- No acknowledgement has become due, and the handshake has not been passed. -/
structure AckQuiet (s t : Endpoint) : Prop where
  acknow : t.cb.flags.acknow = true → s.cb.flags.acknow = true
  delack : t.cb.flags.delack = true → s.cb.flags.delack = true
  synchronized : t.Synchronized → s.Synchronized

theorem AckQuiet.refl (s : Endpoint) : AckQuiet s s := ⟨id, id, id⟩

theorem AckQuiet.trans {s t u : Endpoint} (first : AckQuiet s t) (second : AckQuiet t u) :
    AckQuiet s u :=
  ⟨first.acknow ∘ second.acknow, first.delack ∘ second.delack,
    first.synchronized ∘ second.synchronized⟩

theorem AckQuiet.of_eq {s t : Endpoint} (flags : t.cb.flags = s.cb.flags)
    (state : t.cb.state = s.cb.state) : AckQuiet s t :=
  ⟨by rw [flags]; exact id, by rw [flags]; exact id, by unfold Synchronized; rw [state]; exact id⟩

theorem Output.quiet {s t : Endpoint} (block : Output s t) : AckQuiet s t := by
  cases block with
  | idle =>
      unfold outputIdle UdtCb.slowStart
      split
      · split <;> exact .of_eq rfl rfl
      · exact .refl s
  | consume =>
      obtain ⟨ops, rest, b, _, _, result⟩ := s.consumePendingData_spec
      rw [result]
      exact .of_eq rfl rfl
  | @send u canSend raw pkt env t alive select must before dgram =>
      obtain ⟨_, _, _, state⟩ := ready_sent (outputSelect_selects select)
      obtain ⟨_, _, _, _, _, _, _, result⟩ := transmit_eq { u.ready pkt with env } pkt raw t
      rw [result]
      exact ⟨by simp, by simp, by unfold Synchronized; dsimp only; rw [state]; exact id⟩
  | @persist u canSend pkt select can =>
      obtain ⟨_, _, flags, state⟩ := ready_sent (outputSelect_selects select)
      obtain ⟨tPersist, shift, result⟩ := enterPersist_eq { u.ready pkt with cb.rxtshift := 0 }
      rw [result]
      exact .of_eq flags state
  | @wait u canSend pkt select =>
      obtain ⟨_, _, flags, state⟩ := ready_sent (outputSelect_selects select)
      exact .of_eq flags state
  | record => exact .of_eq rfl rfl

theorem OutputPath.quiet {s t : Endpoint} (path : OutputPath s t) : AckQuiet s t :=
  path.keeps (I := AckQuiet s) (.refl s) fun _ _ first block => first.trans block.quiet

/-- The pass that finds an acknowledgement due sends a segment. -/
theorem outputPass_clears {s : Endpoint} (due : s.cb.flags.acknow = true) :
    ¬ s.outputPass.2.2.AckOwed := by
  rw [outputPass]
  dsimp only
  have consumed : (s.outputConsume s.canSendBytes).cb.flags.acknow = true := by
    rw [(s.outputConsume_spec s.canSendBytes).1]
    exact due
  generalize s.canSendBytes = canSend at consumed ⊢
  generalize s.outputConsume canSend = w at consumed ⊢
  have cleared : ∀ (x : Endpoint) (flags : UChar) (pkt : Option UdtPacket) (raw : Word)
      (sent : List Transmission), ¬ ({ (x.outputSend flags pkt raw).2 with sent } : Endpoint).AckOwed := by
    intro x flags pkt raw sent
    obtain ⟨rtt, rtseq, tRexmt, tPersist, rxtshift, rcvAdv, result⟩ := x.outputSend_eq flags pkt raw
    rw [result]
    simp [AckOwed]
  cases select : w.outputSelect (w.outputForce canSend) with
  | mk pkt u =>
      have flags := (ready_sent (outputSelect_selects select)).2.2.1
      dsimp only
      have ready : (if (pkt.isSome && !u.cb.force) = true then { u with cb := u.cb.leavePersist }
        else u) = u.ready pkt := rfl
      rw [ready]
      split
      · exact cleared _ _ _ _ _
      · have must : (u.ready pkt).mustSend ((u.ready pkt).outputFlags (Conn.pktLen pkt)) = true := by
          rw [Conn.mustSend, flags, consumed]
          simp
        rw [if_pos must]
        exact cleared _ _ _ _ _

theorem output_clears {s : Endpoint} (alive : s.cb.state ≠ .closed)
    (due : s.cb.flags.acknow = true) : ¬ s.output.AckOwed := by
  have idle : s.outputIdle.cb.flags = s.cb.flags ∧ s.outputIdle.cb.state = s.cb.state := by
    unfold outputIdle UdtCb.slowStart
    split
    · split <;> exact ⟨rfl, rfl⟩
    · exact ⟨rfl, rfl⟩
  have first : ¬ s.outputIdle.outputPass.2.2.AckOwed := outputPass_clears (by rw [idle.1, due])
  have state := (outputPass_path s.outputIdle (by rw [idle.2]; exact alive)).2
  have loop : ¬ (s.outputIdle.outputLoop sendPacketsClamp).2.AckOwed := by
    rw [sendPacketsClamp, outputLoop]
    generalize s.outputIdle.outputPass = pass at first state ⊢
    obtain ⟨t, again, x⟩ := pass
    cases again with
    | false => exact first
    | true =>
        have rest := (outputLoop_blocks 9 x (by rw [state, idle.2]; exact alive)).quiet
        exact fun owed => first (owed.imp rest.delack rest.acknow)
  unfold output
  rw [if_neg alive]
  generalize s.outputIdle.outputLoop sendPacketsClamp = result at loop ⊢
  exact loop

end Endpoint

/-- Blocks outside a packet's processing and the fast timer. -/
def Tag.Quiet : Tag → Prop
  | .inner | .post | .cancel | .disconnect | .rest | .connect _ | .accept _ | .shutdown _ | .send _
  | .receive _ | .limit | .close => True
  | _ => False

namespace Endpoint

theorem block_ackQuiet {s t : Endpoint} {a : Tag} (block : Block s a t) (whole : a ≠ .disconnect)
    (quiet : a.Quiet) : AckQuiet s t := by
  cases block with
  | output block => exact block.quiet
  | read =>
      obtain ⟨done, rest, rb, waits, _, _, result⟩ := s.recvDataLoop_spec s.sk.recvOps
      rw [result]
      exact .of_eq rfl rfl
  | @delayed n =>
      obtain ⟨done, rest, rb, _, result⟩ :=
        ({ s with sk.delayWaits := n } : Endpoint).delayedLoop_spec s.sk.recvOps
      rw [result]
      exact .of_eq rfl rfl
  | notifySends =>
      rw [notifySends_eq]
      exact .of_eq rfl rfl
  | notifyHandlers =>
      rw [postHandlers_eq]
      exact .of_eq rfl rfl
  | disconnect => exact absurd rfl whole
  | dropped => exact ⟨id, id, fun later => by simp [Synchronized, TcpState.value] at later⟩
  | receiving =>
      obtain ⟨pkt, next, _, result⟩ := s.doReceive_eq
      rw [result]
      exact .of_eq rfl rfl
  | rexmtBegun =>
      obtain ⟨_, _, _, _, _, _, _, _, _, _, result⟩ := s.rexmtBegun_eq
      rw [result]
      exact .of_eq rfl rfl
  | persistBegun =>
      obtain ⟨_, _, _, _, _, result, _⟩ := s.persistBegun_eq
      rw [result]
      exact .of_eq rfl rfl
  | @connect h =>
      obtain ⟨pkt, next, _, result⟩ := ({ s with sk.connectHandler := some h } : Endpoint).doReceive_eq
      rw [connecting, result]
      refine ⟨id, id, fun later => ?_⟩
      simp [Synchronized, TcpState.value, UdtCb.tcpSendseqinit] at later
  | @connectBusy h =>
      obtain ⟨pkt, next, _, result⟩ := ({ s with sk.connectHandler := some h } : Endpoint).doReceive_eq
      rw [result]
      exact .of_eq rfl rfl
  | @accept h =>
      obtain ⟨pkt, next, _, result⟩ := ({ s with sk.acceptHandler := some h } : Endpoint).doReceive_eq
      rw [result]
      exact ⟨id, id, fun later => by simp [Synchronized, TcpState.value] at later⟩
  | @acceptBusy h =>
      obtain ⟨pkt, next, _, result⟩ := ({ s with sk.acceptHandler := some h } : Endpoint).doReceive_eq
      rw [result]
      exact .of_eq rfl rfl
  | shutdown =>
      unfold closing
      dsimp only
      split
      · next state => exact ⟨id, id, fun _ => by simp [Synchronized, state, TcpState.value]⟩
      · next state => exact ⟨id, id, fun _ => by simp [Synchronized, state, TcpState.value]⟩
      · exact .of_eq rfl rfl
  | mtu =>
      unfold UdtCb.setMtu
      split <;> exact .of_eq rfl rfl
  | notified | reset | readDone | writeDone | failed | dropDone | consumed | released | rexmtTick
  | rexmtExceeded | persistTick | forced | keep | keepProbe | twoMslTick | ticked | waited
  | sendRefused | sendQueued | receiveRefused | receiveQueued | keepalive | sndLimit | rcvLimit
  | cancel => exact ⟨id, id, id⟩
  | close =>
      refine ⟨id, id, fun later => ?_⟩
      simp [Synchronized, closed, TcpState.value, UdtCb.canceltimers] at later
  | _ => exact quiet.elim

theorem path_ackQuiet {C : Endpoint → Tag → Prop} {s t : Endpoint} (path : BlockPath C s t)
    (calm : ∀ s a, C s a → a.Quiet) : AckQuiet s t := by
  refine path.invariant (I := AckQuiet s) (.refl s) fun x a y first met block => ?_
  refine Block.keeps block first fun {_ b _} whole tag inv block => inv.trans ?_
  refine block_ackQuiet block whole ?_
  rcases tag with rfl | rfl | rfl | rfl
  · exact calm x _ met
  all_goals trivial

/-- What an event does that brings no packet. -/
theorem tags_quiet {x : Endpoint} {e : Event} {a : Tag} (tags : e.Tags x a)
    (plain : ∀ hdr mem n, e ≠ .packet hdr mem n) : a.Quiet ∨ a = .fast ∧ e = .fastTimo := by
  cases e with
  | packet hdr mem n => exact absurd rfl (plain hdr mem n)
  | fastTimo =>
      rcases tags with rfl | rfl
      · exact .inr ⟨rfl, rfl⟩
      · exact .inl trivial
  | slowTimo | delayTimer => rcases tags with rfl | rfl | rfl <;> exact .inl trivial
  | connect | send | receive | shutdown | close =>
      rcases tags with rfl | rfl <;> exact .inl trivial
  | receiveError => rcases tags with rfl | rfl | rfl | rfl <;> exact .inl trivial
  | accept | mtu | setKeepalive | setSndBuf | setRcvBuf | cancel =>
      obtain rfl : a = _ := tags
      exact .inl trivial

/-- No acknowledgement is due at once; one may be delayed. -/
def AckSettled (s : Endpoint) : Prop := s.Synchronized → s.cb.flags.acknow = false

theorem AckQuiet.settled {s t : Endpoint} (quiet : AckQuiet s t) (settled : s.AckSettled) :
    t.AckSettled := by
  intro later
  have before := settled (quiet.synchronized later)
  rw [← Bool.not_eq_true] at before ⊢
  exact fun due => before (quiet.acknow due)

theorem output_settled {s : Endpoint} (due : s.cb.flags.acknow = true) : s.output.AckSettled := by
  by_cases closed : s.cb.state = .closed
  · intro later
    have same : s.output = s := by rw [output, if_pos closed]
    rw [same] at later
    simp [Synchronized, closed, TcpState.value] at later
  · intro _
    have cleared := output_clears closed due
    rw [← Bool.not_eq_true]
    exact fun again => cleared (.inr again)

theorem commitOutput_settled (s : Endpoint) : s.commitOutput.AckSettled := by
  by_cases due : s.cb.flags.acknow = true
  · rw [commitOutput, due, Bool.true_or, if_pos rfl]
    exact output_settled due
  · have quiet := path_ackQuiet (commitOutput_blocks s) fun _ _ same => by
      rw [show _ = _ from same]
      trivial
    exact quiet.settled fun _ => by simpa using due

theorem step_settled (s : Endpoint) (e : Event) (settled : s.AckSettled) :
    (s.step e).AckSettled := by
  have late : ∀ {x y : Endpoint}, BlockPath Tag.Late x y → AckQuiet x y := fun path =>
    path_ackQuiet path fun _ _ late => by rcases late with rfl | rfl | rfl <;> trivial
  cases e with
  | packet hdr mem n =>
      rcases s.handleReceive_blocks hdr mem n with unread | ⟨buffer, _, _, _, _, read⟩
      · exact (late unread).settled settled
      · exact (late read).settled (commitOutput_settled _)
  | fastTimo =>
      change s.fastTimer.AckSettled
      unfold fastTimer handleFastTimo
      split
      · split
        · exact output_settled rfl
        · exact settled
      · exact settled
  | _ =>
      refine (path_ackQuiet (s.step_blocks _) fun x a tags => ?_).settled settled
      exact (tags_quiet tags (by simp)).resolve_right (by simp)

theorem run_settled {s : Endpoint} (es : List Event) (settled : s.AckSettled) :
    (s.run es).AckSettled := by
  induction es generalizing s with
  | nil => exact settled
  | cons e es ih => exact ih (s.step_settled e settled)

theorem run_tracked (s : Endpoint) (es : List Event) : AckTracked s (s.run es) := by
  have step : ∀ (x : Endpoint) (e : Event), AckTracked x (x.step e) := fun x e =>
    x.step_keeps (I := AckTracked x) e
      (fun whole first block => first.trans (block_ackTracked block whole)) (.refl x)
  induction es generalizing s with
  | nil => exact .refl s
  | cons e es ih => exact (step s e).trans (ih (s.step e))

/-- Between events the current `m_rcv_nxt` is acknowledged or owed. -/
theorem run_acknowledged (fack sndSeq rcvSeq : Word) (env : Env) (es : List Event)
    (later : ((init fack sndSeq rcvSeq env).run es).Synchronized) :
    ((init fack sndSeq rcvSeq env).run es).lastAck =
        some ((init fack sndSeq rcvSeq env).run es).cb.rcvNxt ∨
      ((init fack sndSeq rcvSeq env).run es).AckOwed := by
  rcases (run_tracked (init fack sndSeq rcvSeq env) es).outcome with ⟨_, acked⟩ | owed | kept
  · exact .inl acked
  · exact .inr owed
  · have early := kept.synchronized later
    simp [Synchronized, init, UdtCb.init, TcpState.value] at early

/-- The fast timer sends what is owed, unless a segment with the current number was sent since. -/
theorem handleFastTimo_acks {s s' : Endpoint} (since : AckTracked s s') (owed : s.AckOwed)
    (settled : s'.AckSettled) (later : s'.Synchronized) :
    ∃ t ∈ s'.handleFastTimo.sent.drop s.sent.length, t.hdr.ack = s'.handleFastTimo.cb.rcvNxt := by
  have last : ∀ x : Endpoint, s.sent.length < x.sent.length → x.lastAck = some x.cb.rcvNxt →
      ∃ t ∈ x.sent.drop s.sent.length, t.hdr.ack = x.cb.rcvNxt := by
    intro x longer acked
    rw [lastAck, Option.map_eq_some_iff] at acked
    obtain ⟨t, final, ack⟩ := acked
    refine ⟨t, ?_, ack⟩
    have inside := List.mem_of_getLast? (l := x.sent.drop s.sent.length) (a := t)
    apply inside
    rw [List.getLast?_drop, if_neg (by omega)]
    exact final
  have alive : s'.cb.state ≠ .closed := by
    intro closed
    simp [Synchronized, closed, TcpState.value] at later
  unfold handleFastTimo
  by_cases due : s'.cb.flags.delack = true
  · rw [if_pos due]
    have cleared := output_clears (s := { s' with
      cb.flags := { s'.cb.flags with delack := false, acknow := true } }) alive rfl
    have sent := output_tracked ({ s' with
      cb.flags := { s'.cb.flags with delack := false, acknow := true } } : Endpoint)
    rcases sent.outcome with ⟨longer, acked⟩ | again | kept
    · exact last _ (since.grows.trans_lt longer) acked
    · exact absurd again cleared
    · exact absurd (kept.owed (.inr rfl)) cleared
  · rw [if_neg due]
    have paid : ¬ s'.AckOwed := by
      rintro (delayed | now)
      · exact due delayed
      · rw [settled later] at now
        cases now
    rcases since.outcome with ⟨longer, acked⟩ | again | kept
    · exact last _ longer acked
    · exact absurd again paid
    · exact absurd (kept.owed owed) paid

/-- From SYN_RECEIVED on an `m_rcv_nxt` other than the number last sent is flagged for an
acknowledgement between any two events. Whatever happens in between, by the end of the next fast
timer a segment with the then current `m_rcv_nxt` has been sent. -/
theorem received_data_acknowledged (fack sndSeq rcvSeq : Word) (env : Env) (es : List Event)
    (later : ((init fack sndSeq rcvSeq env).run es).Synchronized)
    (unsent : ((init fack sndSeq rcvSeq env).run es).lastAck ≠
      some ((init fack sndSeq rcvSeq env).run es).cb.rcvNxt) :
    let s := (init fack sndSeq rcvSeq env).run es
    (s.cb.flags.delack = true ∨ s.cb.flags.acknow = true) ∧
      ∀ more, (s.run more).Synchronized →
        ∃ t ∈ (s.run more).handleFastTimo.sent.drop s.sent.length,
          t.hdr.ack = (s.run more).handleFastTimo.cb.rcvNxt := by
  intro s
  have owed : s.AckOwed := (run_acknowledged fack sndSeq rcvSeq env es later).resolve_left unsent
  refine ⟨owed, fun more later' => ?_⟩
  have fresh : (init fack sndSeq rcvSeq env).AckSettled := fun _ => rfl
  exact handleFastTimo_acks (run_tracked s more) owed (run_settled more (run_settled es fresh)) later'

/-- Three bytes in order after a handshake: their acknowledgement is delayed to the fast timer. -/
theorem received_data_acknowledged_delayed :
    ∃ t ∈ ((init 0 0 0 Env.zero).run [.accept 0,
        .datagram ⟨0, UdtHdr.TH_SYN, 1000, 0, 20, 100, 0, 0⟩ [],
        .datagram ⟨0, UdtHdr.TH_ACK, 1000, 0, 20, 101, 1, 0⟩ [],
        .datagram ⟨0, UdtHdr.TH_ACK, 1000, 3, 20, 101, 1, 0⟩ [7, 8, 9]]).handleFastTimo.sent.drop 1,
      t.hdr.ack = 104 := by
  have acks := (received_data_acknowledged 0 0 0 Env.zero [.accept 0,
    .datagram ⟨0, UdtHdr.TH_SYN, 1000, 0, 20, 100, 0, 0⟩ [],
    .datagram ⟨0, UdtHdr.TH_ACK, 1000, 0, 20, 101, 1, 0⟩ [],
    .datagram ⟨0, UdtHdr.TH_ACK, 1000, 3, 20, 101, 1, 0⟩ [7, 8, 9]]
    (by decide +kernel) (by decide +kernel)).2 [] (by decide +kernel)
  exact acks

end Endpoint
end UdtBoost
