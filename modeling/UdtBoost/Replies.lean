import UdtBoost.DelayedAck
import UdtBoost.TimeWait

/-! What an endpoint puts on the wire. Everything that carries an acknowledgement is a segment of
`output`, except the probe of the keepalive timer, which only an open connection sends. -/
namespace UdtBoost

namespace Endpoint

variable {s t u : Endpoint}

/-- What was sent on the way carries no acknowledgement, or is logged as a segment of `output`. -/
structure Replied (s t : Endpoint) : Prop where
  sent : s.sent <+: t.sent
  wire : ∀ w ∈ t.wire, w ∈ s.wire ∨ (∃ d ∈ t.sent, d.dgram = w) ∨ hasAck w.hdr.flags = false

theorem Replied.refl (s : Endpoint) : Replied s s := ⟨List.prefix_refl _, fun _ => .inl⟩

theorem Replied.of_eq (sent : t.sent = s.sent) (wire : t.wire = s.wire) : Replied s t := by
  refine ⟨sent ▸ List.prefix_refl _, fun w member => ?_⟩
  rw [wire] at member
  exact .inl member

theorem Replied.trans (first : Replied s t) (second : Replied t u) : Replied s u where
  sent := first.sent.trans second.sent
  wire w member := by
    rcases second.wire w member with old | new
    · rcases first.wire w old with old | ⟨d, logged, same⟩ | plain
      · exact .inl old
      · exact .inr (.inl ⟨d, second.sent.subset logged, same⟩)
      · exact .inr (.inr plain)
    · exact .inr new

theorem transmit_replied (u : Endpoint) (pkt : Option UdtPacket) (raw : Word) (d : Transmission)
    (dgram : d.dgram = (u.outputSend (u.sendFlags pkt) pkt raw).1) :
    Replied u (u.transmit pkt raw d) := by
  obtain ⟨_, _, _, _, _, _, result⟩ := u.outputSend_eq (u.sendFlags pkt) pkt raw
  rw [transmit, result]
  refine ⟨List.prefix_append _ _, fun w member => ?_⟩
  rcases List.mem_append.mp member with old | new
  · exact .inl old
  · refine .inr (.inl ⟨d, List.mem_append.mpr (.inr (List.mem_singleton.mpr rfl)), ?_⟩)
    rw [dgram]
    exact (List.mem_singleton.mp new).symm

theorem Output.replied (block : Output s t) : Replied s t := by
  cases block with
  | idle =>
      unfold outputIdle
      split
      · exact .of_eq rfl rfl
      · exact .refl s
  | consume =>
      obtain ⟨_, _, _, _, _, result⟩ := s.consumePendingData_spec
      rw [result]
      exact .of_eq rfl rfl
  | @send u canSend raw pkt env d alive select _ _ dgram =>
      have selects := outputSelect_selects select
      have logged := (ready_sent selects).1
      have wire := ready_wire selects
      have chosen : Replied s { u.ready pkt with env } := .of_eq logged wire
      exact chosen.trans (transmit_replied _ pkt raw d dgram)
  | @persist u canSend pkt select =>
      have selects := outputSelect_selects select
      obtain ⟨_, _, result⟩ := enterPersist_eq { u.ready pkt with cb.rxtshift := 0 }
      rw [result]
      exact .of_eq (ready_sent selects).1 (ready_wire selects)
  | wait select =>
      have selects := outputSelect_selects select
      exact .of_eq (ready_sent selects).1 (ready_wire selects)
  | record => exact .of_eq rfl rfl

theorem output_replied (s : Endpoint) : Replied s s.output :=
  s.output_blocks.keeps (I := Replied s) (.refl s) fun _ _ first block => first.trans block.replied

theorem doFastRexmt_replied (s : Endpoint) (ack : Word) : Replied s (s.doFastRexmt ack) := by
  obtain ⟨_, _, _, _, _, _, _, _, result, _⟩ := s.beginFastRexmt_eq ack
  have begun : Replied s (s.handlePacketLost.beginFastRexmt ack) := by
    rw [result]
    exact .of_eq rfl rfl
  have sent := output_replied (s.handlePacketLost.beginFastRexmt ack)
  rw [doFastRexmt]
  dsimp only
  generalize s.handlePacketLost.beginFastRexmt ack = x at begun sent ⊢
  exact (begun.trans sent).trans (.of_eq rfl rfl)

/-- The blocks behind a packet, a read or a request of the user. -/
theorem block_replied {a : Tag} (block : Block s a t) (whole : a ≠ .disconnect)
    (busy : a ≠ .rest) : Replied s t := by
  cases block with
  | output block => exact block.replied
  | read =>
      obtain ⟨_, _, _, _, _, _, result⟩ := s.recvDataLoop_spec s.sk.recvOps
      rw [result]
      exact .of_eq rfl rfl
  | @delayed n =>
      obtain ⟨_, _, _, _, result⟩ :=
        ({ s with sk.delayWaits := n } : Endpoint).delayedLoop_spec s.sk.recvOps
      rw [result]
      exact .of_eq rfl rfl
  | notifySends =>
      rw [notifySends_eq]
      exact .of_eq rfl rfl
  | notifyHandlers =>
      rw [postHandlers_eq]
      exact .of_eq rfl rfl
  | disconnect => exact absurd rfl whole
  | sampled =>
      unfold updateRtt
      split
      · obtain ⟨_, _, _, result⟩ := s.xmitTimer_eq s.cb.rtt
        rw [result]
        exact .of_eq rfl rfl
      · exact .refl s
  | @ackPredicted p =>
      obtain ⟨_, _, _, _, _, _, _, _, result⟩ := s.ackPredicted_eq p.hdr.ack
      rw [result]
      exact .of_eq rfl rfl
  | @syn p =>
      obtain ⟨_, _, _, result⟩ := s.handleSyn_eq p
      rw [result]
      split <;> exact .of_eq rfl rfl
  | @reass p =>
      obtain ⟨_, _, _, _, _, _, result⟩ := s.TCP_REASS_eq p
      rw [result]
      exact .of_eq rfl rfl
  | ackAll =>
      obtain ⟨_, _, _, _, _, _, _, _, _, _, _, _, _, _, result⟩ := s.updateAckState_eq
      rw [result]
      exact .of_eq rfl rfl
  | sacked =>
      rw [dropSndPkt_eq]
      exact .of_eq rfl rfl
  | @window p =>
      obtain ⟨_, _, result⟩ := s.ackWindow_eq (p.hdr.win.setWidth 32)
      rw [result]
      exact .of_eq rfl rfl
  | fastRexmt =>
      have counted : Replied s { s with cb.dupacks := s.cb.dupacks + 1, cb.rtt := 0 } := .of_eq rfl rfl
      exact counted.trans (doFastRexmt_replied _ _)
  | @ackNew p =>
      obtain ⟨_, _, _, _, _, _, _, _, _, result⟩ := s.ackNewData_eq p.hdr
      rw [result]
      exact .of_eq rfl rfl
  | fin =>
      obtain ⟨_, _, result⟩ := s.handleFin_eq
      rw [result]
      split <;> exact .of_eq rfl rfl
  | @connect h =>
      obtain ⟨_, _, _, result⟩ := ({ s with sk.connectHandler := some h } : Endpoint).doReceive_eq
      rw [connecting, result]
      exact .of_eq rfl rfl
  | @connectBusy h =>
      obtain ⟨_, _, _, result⟩ := ({ s with sk.connectHandler := some h } : Endpoint).doReceive_eq
      rw [result]
      exact .of_eq rfl rfl
  | @accept h =>
      obtain ⟨_, _, _, result⟩ := ({ s with sk.acceptHandler := some h } : Endpoint).doReceive_eq
      rw [result]
      exact .of_eq rfl rfl
  | @acceptBusy h =>
      obtain ⟨_, _, _, result⟩ := ({ s with sk.acceptHandler := some h } : Endpoint).doReceive_eq
      rw [result]
      exact .of_eq rfl rfl
  | shutdown =>
      unfold closing
      dsimp only
      split <;> exact .of_eq rfl rfl
  | reset | readDone | writeDone | failed | dropped | dropDone | consumed | receiving | released
  | rexmtTick | rexmtExceeded | rexmtBegun | persistTick | persistBegun | forced | keep | keepProbe
  | twoMslTick | ticked | waited | keepalive | mtu => exact absurd rfl busy
  | _ => exact .of_eq rfl rfl

theorem path_replied {C : Endpoint → Tag → Prop} (path : BlockPath C s t)
    (busy : ∀ s a, C s a → a ≠ .disconnect ∧ a ≠ .rest) : Replied s t :=
  path.invariant (I := Replied s) (.refl s) fun x a _ first met block =>
    first.trans (block_replied block (busy x a met).1 (busy x a met).2)

theorem inner_replied (path : BlockPath Tag.Inner s t) : Replied s t := by
  refine path_replied path ?_
  rintro _ a rfl
  exact ⟨by simp, by simp⟩

theorem ending_replied (path : BlockPath Tag.Ending s t) : Replied s t := by
  refine path_replied path ?_
  rintro _ a (rfl | rfl | rfl) <;> exact ⟨by simp, by simp⟩

theorem drop_replied (s : Endpoint) (e : UdtError) : Replied s (s.drop e) := by
  unfold drop
  dsimp only
  have failed : Replied s
      (if e ≠ .succeed then { s with cb.lastError := e } else s : Endpoint) := by
    split
    · exact .of_eq rfl rfl
    · exact .refl s
  generalize (if e ≠ .succeed then { s with cb.lastError := e } else s : Endpoint) = x at failed ⊢
  have ended := ending_replied x.onDisconnected_blocks
  exact (failed.trans ended).trans (.of_eq rfl rfl)

theorem resetPeer_replied (s : Endpoint) : Replied s s.resetPeer := by
  refine ⟨List.prefix_refl _, fun w member => ?_⟩
  rcases List.mem_append.mp member with old | new
  · exact .inl old
  · rw [List.mem_singleton.mp new]
    have plain : hasAck UdtHdr.TH_RST = false := by decide
    exact .inr (.inr plain)

theorem doReceive_replied (s : Endpoint) : Replied s s.doReceive := by
  obtain ⟨_, _, _, result⟩ := s.doReceive_eq
  rw [result]
  exact .of_eq rfl rfl

theorem inputChecked_replied (s : Endpoint) (p : UdtPacket) : Replied s (s.inputChecked p) := by
  refine path_replied s.inputChecked_blocks.path ?_
  rintro _ a (mild | rfl)
  · cases a <;> first | exact absurd mild not_false | exact ⟨by simp, by simp⟩
  · exact ⟨by simp, by simp⟩

theorem commitNotifies_replied (s : Endpoint) : Replied s s.commitNotifies := by
  have reset : ∀ x : Endpoint, Replied x x.commitReset := by
    intro x
    unfold commitReset
    split
    · exact x.resetPeer_replied.trans (.of_eq rfl rfl)
    · exact .refl x
  have read : ∀ x : Endpoint, Replied x x.commitRead := by
    intro x
    unfold commitRead
    split
    · exact (inner_replied x.notifyReadable_blocks).trans (.of_eq rfl rfl)
    · exact .refl x
  have write : ∀ x : Endpoint, Replied x x.commitWrite := by
    intro x
    unfold commitWrite
    split
    · exact (inner_replied x.onWritable_blocks).trans (.of_eq rfl rfl)
    · exact .refl x
  have drop : ∀ x : Endpoint, Replied x x.commitDrop := by
    intro x
    unfold commitDrop
    split
    · exact (x.drop_replied x.cb.lastError).trans (.of_eq rfl rfl)
    · exact .refl x
  exact ((((inner_replied s.commitOutput_blocks).trans (reset _)).trans (read _)).trans
    (write _)).trans (drop _)

theorem received_replied (s : Endpoint) : Replied s s.received := by
  unfold received pktConsumed
  cases consumed : s.cb.flags.packetConsumed with
  | true =>
      have again := doReceive_replied { s with cb.flags.packetConsumed := false, sk.rcvPkt := none }
      have kept : Replied s { s with cb.flags.packetConsumed := false, sk.rcvPkt := none } :=
        .of_eq rfl rfl
      exact kept.trans again
  | false => exact s.doReceive_replied

theorem handleReceive_replied (s : Endpoint) (hdr : UdtHdr) (mem : List UChar) (n : Nat) :
    Replied s (s.handleReceive hdr mem n) := by
  rcases s.handleReceive_cases hdr mem n with (same | same) | ⟨buffer, _, _, _, result⟩
  · rw [same]
    exact .refl s
  · rw [same]
    exact s.doReceive_replied
  · rw [result]
    exact ((inputChecked_replied _ _).trans (commitNotifies_replied _)).trans (received_replied _)

section Timers

variable (s : Endpoint)

theorem slowRexmt_replied : Replied s s.slowRexmt := by
  unfold slowRexmt
  split
  · exact .refl s
  · dsimp only
    split
    · unfold rexmtExpired
      dsimp only
      split
      · have failed : Replied s
            { s with cb.tRexmt := s.cb.tRexmt - 1, cb.rxtshift := TCP_MAXRXTSHIFT } :=
          .of_eq rfl rfl
        exact failed.trans (drop_replied _ _)
      · obtain ⟨_, _, _, _, _, _, _, _, _, _, result⟩ := s.rexmtBegun_eq
        have begun : Replied s s.rexmtBegun := by
          rw [result]
          exact .of_eq rfl rfl
        exact begun.trans s.rexmtBegun.output_replied
    · exact .of_eq rfl rfl

theorem slowPersist_replied : Replied s s.slowPersist := by
  unfold slowPersist
  split
  · exact .refl s
  · dsimp only
    split
    · obtain ⟨_, _, _, _, _, result, _⟩ := s.persistBegun_eq
      have begun : Replied s s.persistBegun := by
        rw [result]
        exact .of_eq rfl rfl
      have sent := begun.trans s.persistBegun.output_replied
      change Replied s { s.persistBegun.output with cb.force := false }
      generalize s.persistBegun.output = x at sent ⊢
      exact sent.trans (.of_eq rfl rfl)
    · exact .of_eq rfl rfl

theorem slow2msl_replied : Replied s s.slow2msl := by
  unfold slow2msl
  split
  · exact .refl s
  · dsimp only
    split
    · have ticked : Replied s { s with cb.t2msl := s.cb.t2msl - 1 } := .of_eq rfl rfl
      exact ticked.trans (drop_replied _ _)
    · exact .of_eq rfl rfl

/-- The probe of the keepalive timer, of a connection in the state of `s`. -/
def IsProbe (s : Endpoint) (w : Datagram) : Prop :=
  TcpState.established.value ≤ s.cb.state.value ∧ hasSyn w.hdr.flags = false ∧
    w.hdr.ntoh.ack = s.cb.rcvNxt

theorem slowKeep_wire (s : Endpoint) : s.sent <+: s.slowKeep.sent ∧ ∀ w ∈ s.slowKeep.wire,
    w ∈ s.wire ∨ (∃ d ∈ s.slowKeep.sent, d.dgram = w) ∨ hasAck w.hdr.flags = false ∨
      s.IsProbe w := by
  have plain : ∀ {t : Endpoint}, Replied s t → s.sent <+: t.sent ∧ ∀ w ∈ t.wire,
      w ∈ s.wire ∨ (∃ d ∈ t.sent, d.dgram = w) ∨ hasAck w.hdr.flags = false ∨ s.IsProbe w := by
    intro t replied
    refine ⟨replied.sent, fun w member => ?_⟩
    rcases replied.wire w member with old | logged | none
    · exact .inl old
    · exact .inr (.inl logged)
    · exact .inr (.inr (.inl none))
  unfold slowKeep
  split
  · exact plain (.refl s)
  · dsimp only
    split
    · have dropped : Replied s (drop { s with cb.tKeep := s.cb.tKeep - 1 } .timedOut) := by
        have ticked : Replied s { s with cb.tKeep := s.cb.tKeep - 1 } := .of_eq rfl rfl
        exact ticked.trans (drop_replied _ _)
      unfold keepExpired
      split
      · exact plain dropped
      · next opened =>
          split
          · split
            · exact plain dropped
            · refine ⟨List.prefix_refl _, fun w member => ?_⟩
              rcases List.mem_append.mp member with old | new
              · exact .inl old
              · have noSyn : hasSyn UdtHdr.TH_ACK = false := by decide
                rw [List.mem_singleton.mp new]
                refine .inr (.inr (.inr ⟨Nat.le_of_not_lt opened, noSyn, ?_⟩))
                exact congrArg UdtHdr.ack (UdtHdr.ntoh_hton _)
          · exact plain (.of_eq rfl rfl)
    · exact plain (.of_eq rfl rfl)

/-- Nothing is received, and the state stays unless the connection ends. -/
theorem idle_still {v w : View}
    (path : ViewPath (fun _ a => a = .tau ∨ ∃ on, a = .force on) v w) :
    w.rcvNxt = v.rcvNxt ∧ (w.state = v.state ∨ w.state = .closed) := by
  refine path.invariant (I := fun u => u.rcvNxt = v.rcvNxt ∧ (u.state = v.state ∨ u.state = .closed))
    ⟨rfl, .inl rfl⟩ ?_
  rintro u a x same (rfl | ⟨on, rfl⟩) step
  · cases step with
    | transmit _ _ sends =>
        rw [sends.moved]
        exact same
    | closed => exact ⟨same.1, .inr rfl⟩
    | _ => exact same
  · cases step with
    | force => exact same

theorem handleSlowTimo_wire (s : Endpoint) : ∀ w ∈ s.handleSlowTimo.wire,
    w ∈ s.wire ∨ (∃ d ∈ s.handleSlowTimo.sent, d.dgram = w) ∨ hasAck w.hdr.flags = false ∨
      s.IsProbe w := by
  have before := s.slowRexmt_replied.trans s.slowRexmt.slowPersist_replied
  have idle : ViewPath (fun _ a => a = .tau ∨ ∃ on, a = .force on) s.view
      s.slowRexmt.slowPersist.view := by
    have first := s.slowRexmt_path.of_tau (C := fun _ a => a = .tau ∨ ∃ on, a = .force on)
      fun _ => .inl rfl
    exact first.trans (s.slowRexmt.slowPersist_path (fun _ => .inl rfl) fun _ _ => .inr ⟨_, rfl⟩)
  obtain ⟨nxt, state⟩ := idle_still idle
  have state_ : s.slowRexmt.slowPersist.cb.state = s.cb.state ∨
      s.slowRexmt.slowPersist.cb.state = .closed := state
  have nxt_ : s.slowRexmt.slowPersist.cb.rcvNxt = s.cb.rcvNxt := nxt
  rw [handleSlowTimo]
  dsimp only
  generalize s.slowRexmt.slowPersist = x at before nxt_ state_
  obtain ⟨kept, probed⟩ := x.slowKeep_wire
  have after := x.slowKeep.slow2msl_replied
  intro w member
  rcases after.wire w member with old | logged | none
  · rcases probed w old with older | ⟨d, logged, same⟩ | none | ⟨opened, noSyn, ack⟩
    · rcases before.wire w older with oldest | ⟨d, logged, same⟩ | none
      · exact .inl oldest
      · exact .inr (.inl ⟨d, after.sent.subset (kept.subset logged), same⟩)
      · exact .inr (.inr (.inl none))
    · exact .inr (.inl ⟨d, after.sent.subset logged, same⟩)
    · exact .inr (.inr (.inl none))
    · rcases state_ with same | shut
      · exact .inr (.inr (.inr ⟨same ▸ opened, noSyn, ack.trans nxt_⟩))
      · rw [shut] at opened
        exact absurd opened (by decide)
  · exact .inr (.inl logged)
  · exact .inr (.inr (.inl none))

end Timers

/-- Everything that carries an acknowledgement was there before, is a logged segment, or is the
probe of the keepalive timer. -/
theorem step_wire (s : Endpoint) (e : Event) : ∀ w ∈ (s.step e).wire,
    w ∈ s.wire ∨ (∃ d ∈ (s.step e).sent, d.dgram = w) ∨ hasAck w.hdr.flags = false ∨
      s.IsProbe w := by
  have plain : Replied s (s.step e) → ∀ w ∈ (s.step e).wire,
      w ∈ s.wire ∨ (∃ d ∈ (s.step e).sent, d.dgram = w) ∨ hasAck w.hdr.flags = false ∨
        s.IsProbe w := by
    intro replied w member
    rcases replied.wire w member with old | logged | none
    · exact .inl old
    · exact .inr (.inl logged)
    · exact .inr (.inr (.inl none))
  have requested : (∀ a, e.Tags s a → a ≠ .disconnect ∧ a ≠ .rest) → Replied s (s.step e) := by
    intro busy
    exact path_replied (s.step_blocks e) fun _ a => busy a
  cases e with
  | slowTimo =>
      change ∀ w ∈ s.slowTimer.wire, _ ∨ (∃ d ∈ s.slowTimer.sent, _) ∨ _
      unfold slowTimer
      split
      · exact s.handleSlowTimo_wire
      · exact fun w member => .inl member
  | packet hdr mem n => exact plain (s.handleReceive_replied hdr mem n)
  | connect | send | receive | shutdown | fastTimo | close =>
      refine plain (requested ?_)
      rintro a (rfl | rfl) <;> exact ⟨by simp, by simp⟩
  | accept | setSndBuf | setRcvBuf | cancel =>
      refine plain (requested ?_)
      rintro a rfl
      exact ⟨by simp, by simp⟩
  | delayTimer aborted =>
      refine plain ?_
      change Replied s (s.handleDelayRecvOperation aborted)
      unfold handleDelayRecvOperation
      split
      · exact .refl s
      · dsimp only
        split
        · exact .of_eq rfl rfl
        · exact block_replied (a := .inner) .delayed (by simp) (by simp)
  | receiveError value =>
      refine plain ?_
      change Replied s (s.handleReceiveError value)
      rw [handleReceiveError_eq]
      split
      · have released : Replied s { s with sk.rcvPkt := none } := .of_eq rfl rfl
        exact released.trans (ending_replied (onDisconnected_blocks _))
      · exact .refl s
  | mtu =>
      refine plain ?_
      change Replied s s.handleMtu
      unfold handleMtu
      split
      · exact .of_eq rfl rfl
      · exact .refl s
  | setKeepalive on => exact plain (.of_eq rfl rfl)

end Endpoint

end UdtBoost
