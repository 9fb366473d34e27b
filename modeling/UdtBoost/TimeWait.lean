import UdtBoost.Effects

/-! TIME_WAIT. The packet that brings an endpoint into it also raises the flag on which the same
call of `input` drops the connection, so the state is never seen between two events. -/
namespace UdtBoost

/-- A block cannot bring about TIME_WAIT unless it acknowledges everything or handles a FIN. -/
theorem StateChange.awake {sentfin : Bool} {q r : TcpState} {a : Tag}
    (change : StateChange sentfin q a r) (other : (∀ p, a ≠ .ackAll p) ∧ a ≠ .fin)
    (awake : q ≠ .timeWait) : r ≠ .timeWait := by
  cases change with
  | same => exact awake
  | @acked q p => exact absurd rfl (other.1 p)
  | fin => exact absurd rfl other.2
  | shutdown =>
      split
      · simp
      · split
        · simp
        · exact awake
  | _ => simp

/-- A closed connection stays closed unless the user opens it again. -/
theorem StateChange.closed {sentfin : Bool} {r : TcpState} {a : Tag}
    (change : StateChange sentfin .closed a r) (other : ∀ h, a ≠ .connect h ∧ a ≠ .accept h) :
    r = .closed := by
  cases change with
  | same | acked | fin | dropped | shutdown | close => rfl
  | syn handshake => simp at handshake
  | @connect h => exact absurd rfl (other h).1
  | @accept h => exact absurd rfl (other h).2

namespace Endpoint

/-- TIME_WAIT is due to end with this event: the user closes the socket, a reset arrives, or the
2MSL timer is on its last tick. -/
def EndsTimeWait (s : Endpoint) : Event → Prop
  | .slowTimo => s.cb.t2msl = 1
  | .packet hdr _ _ => hasRst hdr.flags = true
  | .close => True
  | _ => False

/-- A whole FIN that is no reset arrives where a buffer waits for it. -/
structure FinArrives (s : Endpoint) (hdr : UdtHdr) (n : Nat) : Prop where
  alive : s.sk.nextLayer = true
  pending : s.sk.rcvPkt.isSome = true
  good : intact hdr n
  isFin : hasFin hdr.flags = true
  noRst : hasRst hdr.flags = false

/-- The datagrams an event puts on the wire. -/
def answers (s : Endpoint) (e : Event) : List Datagram := (s.step e).wire.drop s.wire.length

/-- TIME_WAIT lasts until something is due to end it, and every FIN in it is acknowledged. -/
def Lingers (t : Endpoint) : Prop :=
  ∀ more, Trace.Meets step (fun s e => ¬ EndsTimeWait s e) t more →
    (t.run more).cb.state = .timeWait ∧
      ∀ hdr mem n, (t.run more).FinArrives hdr n →
        (∃ d ∈ (t.run more).answers (.packet hdr mem n), hasAck d.hdr.ntoh.flags = true) ∧
          ∀ d ∈ (t.run more).answers (.packet hdr mem n), hasRst d.hdr.ntoh.flags = false

/-- The packet's processing puts the endpoint in TIME_WAIT. -/
structure EntersTimeWait (s : Endpoint) (hdr : UdtHdr) (mem : List UChar) (n : Nat) : Prop where
  alive : s.sk.nextLayer = true
  good : intact hdr n
  state : ∃ buffer, s.sk.rcvPkt = some buffer ∧
    (s.inputChecked (hostPacket hdr mem buffer)).cb.state = .timeWait

/-- Whatever puts the endpoint in TIME_WAIT arms the timer and asks for the drop. -/
def Dropping (s : Endpoint) : Prop :=
  s.cb.state = .timeWait → s.cb.t2msl = 2 * TCPTV_MSL ∧ s.cb.flags.notifyDrop = true

theorem Dropping.of_steady {s t : Endpoint} (dropping : s.Dropping) (same : t.steady = s.steady) :
    t.Dropping := by
  have state : t.cb.state = s.cb.state := congrArg Steady.state same
  have timer : t.cb.t2msl = s.cb.t2msl := congrArg Steady.t2msl same
  have drop : t.cb.flags.notifyDrop = s.cb.flags.notifyDrop := congrArg Steady.notifyDrop same
  unfold Dropping
  rw [state, timer, drop]
  exact dropping

theorem ackHandshake_dropping {s : Endpoint} (dropping : s.Dropping) : s.ackHandshake.Dropping := by
  unfold ackHandshake
  split
  · exact fun waiting => by simp at waiting
  · have timed : ({ s with cb.state := .established } : Endpoint).timeHandshake.cb.state =
        .established := by
      unfold timeHandshake
      split
      · obtain ⟨srtt, rttvar, rxtcur, result⟩ :=
          ({ s with cb.state := .established } : Endpoint).xmitTimer_eq s.cb.rtt
        rw [result]
      · rfl
    obtain ⟨connect, accept, posted, result⟩ :=
      ({ s with cb.state := .established } : Endpoint).timeHandshake.onConnected_eq
    rw [result]
    exact fun waiting => by simp [timed] at waiting
  · exact dropping

theorem ackFin_dropping {s : Endpoint} (dropping : s.Dropping) : s.ackFin.Dropping := by
  unfold ackFin
  split
  · split
    · exact fun waiting => by simp at waiting
    · exact fun _ => ⟨rfl, rfl⟩
    · exact fun waiting => by simp at waiting
    · exact dropping
  · exact dropping

theorem handleFin_dropping {s : Endpoint} (dropping : s.Dropping) : s.handleFin.Dropping := by
  rw [handleFin]
  generalize counted : (if (!({ s with finHandled := true } : Endpoint).cb.TCPS_HAVERCVDFIN) = true
    then _ else ({ s with finHandled := true } : Endpoint)) = x
  have kept : x.Dropping := by
    rw [← counted]
    split <;> exact dropping
  dsimp only
  split
  case h_5 | h_6 => exact fun _ => ⟨rfl, rfl⟩
  case h_7 => exact kept
  all_goals exact fun waiting => by simp at waiting

theorem doFastRexmt_dropping {s : Endpoint} (dropping : s.Dropping) (ack : Word) :
    (s.doFastRexmt ack).Dropping :=
  dropping.of_steady (s.doFastRexmt_steady ack)

/-- Every block of a packet's processing keeps `Dropping`. -/
theorem input_dropping {p : UdtPacket} {s t : Endpoint} {a : Tag} (block : Block s a t)
    (tag : Tag.Mild p s a ∨ a = .ack p.counted) (dropping : s.Dropping) : t.Dropping := by
  cases block with
  | output block => exact dropping.of_steady block.steady
  | read => exact dropping.of_steady (inner_steady .read)
  | delayed => exact dropping.of_steady (inner_steady .delayed)
  | sampled =>
      unfold updateRtt
      split
      · obtain ⟨srtt, rttvar, rxtcur, result⟩ := s.xmitTimer_eq s.cb.rtt
        rw [result]
        exact dropping
      · exact dropping
  | hangup => exact fun waiting => ⟨(dropping waiting).1, rfl⟩
  | @ackPredicted p =>
      obtain ⟨_, _, _, _, _, _, _, _, result⟩ := s.ackPredicted_eq p.hdr.ack
      rw [result]
      exact dropping
  | @syn p alive isSyn =>
      obtain ⟨wl1, wl2, tKeep, result⟩ := s.handleSyn_eq p
      rw [result]
      split
      · exact fun waiting => by simp at waiting
      · exact dropping
  | @reass p =>
      obtain ⟨_, _, _, _, _, _, result⟩ := s.TCP_REASS_eq p
      rw [result]
      exact dropping
  | ackAll => exact ackFin_dropping (ackHandshake_dropping dropping)
  | fack =>
      unfold UdtCb.updateSndFack
      split <;> exact dropping
  | sacked =>
      unfold dropSndPkt
      dsimp only
      split <;> exact dropping
  | @window p =>
      obtain ⟨_, _, result⟩ := s.ackWindow_eq (p.hdr.win.setWidth 32)
      rw [result]
      exact dropping
  | late =>
      obtain ⟨_, _, result⟩ := resetRexmtTimer_eq { s.cb with dupacks := 0 }
      rw [result]
      exact dropping
  | duplicate =>
      obtain ⟨_, _, result⟩ := resetRexmtTimer_eq { s.cb with dupacks := s.cb.dupacks + 1 }
      rw [result]
      exact dropping
  | fastRexmt =>
      have counted : ({ s with cb.dupacks := s.cb.dupacks + 1, cb.rtt := 0 } : Endpoint).Dropping :=
        dropping
      exact doFastRexmt_dropping counted _
  | @ackNew p =>
      obtain ⟨_, _, _, _, _, _, _, _, _, result⟩ := s.ackNewData_eq p.hdr
      rw [result]
      exact dropping
  | fin => exact handleFin_dropping dropping
  | arrived | windowed | owed | storePredicted | cwnd | rewrite | recovering => exact dropping
  | _ => rcases tag with mild | same <;> first | exact mild.elim | cases same

theorem entering_dropping {s : Endpoint} {p : UdtPacket} (awake : s.cb.state ≠ .timeWait)
    (waiting : (s.inputChecked p).cb.state = .timeWait) :
    (s.inputChecked p).cb.t2msl = 2 * TCPTV_MSL ∧ (s.inputChecked p).cb.flags.notifyDrop = true := by
  have dropping : (s.inputChecked p).Dropping :=
    (s.inputChecked_blocks.path).invariant (fun waits => absurd waits awake)
      fun _ _ _ dropping tag block => input_dropping block tag dropping
  exact dropping waiting

theorem path_awake {C : Endpoint → Tag → Prop} {s t : Endpoint} (path : BlockPath C s t)
    (other : ∀ s a, C s a → (∀ p, a ≠ .ackAll p) ∧ a ≠ .fin) (awake : s.cb.state ≠ .timeWait) :
    t.cb.state ≠ .timeWait := by
  refine path.invariant (I := fun t => t.cb.state ≠ .timeWait) awake fun x a y awake met block => ?_
  refine Block.keeps (I := fun t => t.cb.state ≠ .timeWait) block awake
    fun whole tag awake block => (block_state block whole).awake ?_ awake
  rcases tag with rfl | rfl | rfl | rfl
  · exact other x _ met
  all_goals exact ⟨fun p => by simp, by simp⟩

theorem onDisconnected_t2msl (s : Endpoint) : s.onDisconnected.cb.t2msl = s.cb.t2msl := by
  unfold onDisconnected
  split
  · dsimp only
    rw [notifySends_eq]
    have read := congrArg Steady.t2msl (path_inner_steady (recvData_blocks
      { s with posted := s.posted ++ s.sk.sendOps.map (.sent · .disconnected 0) }))
    generalize recvData _ = x at read ⊢
    rw [postHandlers_eq]
    exact read
  · rfl

/-- What `commit_notifies` has not touched when it comes to the drop. -/
theorem commitWrite_drop (s : Endpoint) :
    let t := s.commitOutput.commitReset.commitRead.commitWrite
    t.cb.t2msl = s.cb.t2msl ∧ t.cb.flags.notifyDrop = s.cb.flags.notifyDrop := by
  have sent : s.commitOutput.steady = s.steady := path_inner_steady s.commitOutput_blocks
  have reset : ∀ x : Endpoint, x.commitReset.cb.t2msl = x.cb.t2msl ∧
      x.commitReset.cb.flags.notifyDrop = x.cb.flags.notifyDrop := by
    intro x
    unfold commitReset
    split <;> exact ⟨rfl, rfl⟩
  have read : ∀ x : Endpoint, x.commitRead.cb.t2msl = x.cb.t2msl ∧
      x.commitRead.cb.flags.notifyDrop = x.cb.flags.notifyDrop := by
    intro x
    have readable : x.notifyReadable.steady = x.steady := path_inner_steady x.notifyReadable_blocks
    unfold commitRead
    split
    · exact ⟨congrArg Steady.t2msl readable, congrArg Steady.notifyDrop readable⟩
    · exact ⟨rfl, rfl⟩
  have write : ∀ x : Endpoint, x.commitWrite.cb.t2msl = x.cb.t2msl ∧
      x.commitWrite.cb.flags.notifyDrop = x.cb.flags.notifyDrop := by
    intro x
    have written : x.onWritable.steady = x.steady := path_inner_steady x.onWritable_blocks
    unfold commitWrite
    split
    · exact ⟨congrArg Steady.t2msl written, congrArg Steady.notifyDrop written⟩
    · exact ⟨rfl, rfl⟩
  intro t
  constructor
  · calc t.cb.t2msl = s.commitOutput.commitReset.commitRead.cb.t2msl := (write _).1
      _ = s.commitOutput.commitReset.cb.t2msl := (read _).1
      _ = s.commitOutput.cb.t2msl := (reset _).1
      _ = s.cb.t2msl := congrArg Steady.t2msl sent
  · calc t.cb.flags.notifyDrop = s.commitOutput.commitReset.commitRead.cb.flags.notifyDrop :=
          (write _).2
      _ = s.commitOutput.commitReset.cb.flags.notifyDrop := (read _).2
      _ = s.commitOutput.cb.flags.notifyDrop := (reset _).2
      _ = s.cb.flags.notifyDrop := congrArg Steady.notifyDrop sent

theorem received_cb (s : Endpoint) :
    s.received.cb.state = s.cb.state ∧ s.received.cb.t2msl = s.cb.t2msl := by
  unfold received pktConsumed
  split
  · next x same =>
      obtain ⟨pkt, next, _, result⟩ := ({ x with sk.rcvPkt := none } : Endpoint).doReceive_eq
      rw [result]
      split at same <;> cases same
      exact ⟨rfl, rfl⟩
  · next x same =>
      obtain ⟨pkt, next, _, result⟩ := x.doReceive_eq
      rw [result]
      split at same <;> cases same
      exact ⟨rfl, rfl⟩

/-- A packet whose processing asks for the drop leaves the connection closed, its timer as it was. -/
theorem commitNotifies_drops {s : Endpoint} (asked : s.cb.flags.notifyDrop = true) :
    s.commitNotifies.received.cb.state = .closed ∧
      s.commitNotifies.received.cb.t2msl = s.cb.t2msl := by
  obtain ⟨timer, drop⟩ := s.commitWrite_drop
  obtain ⟨state, kept⟩ := s.commitNotifies.received_cb
  rw [state, kept, commitNotifies, ← timer]
  rw [asked] at drop
  generalize s.commitOutput.commitReset.commitRead.commitWrite = x at drop ⊢
  rw [commitDrop, if_pos drop]
  refine ⟨rfl, ?_⟩
  unfold Endpoint.drop
  dsimp only
  rw [onDisconnected_t2msl]
  split <;> rfl

theorem step_awake (s : Endpoint) (e : Event) (awake : s.cb.state ≠ .timeWait) :
    (s.step e).cb.state ≠ .timeWait := by
  have late : ∀ {x y : Endpoint}, BlockPath Tag.Late x y → x.cb.state ≠ .timeWait →
      y.cb.state ≠ .timeWait := fun path => path_awake path fun _ _ late => by
    rcases late with rfl | rfl | rfl <;> exact ⟨fun p => by simp, by simp⟩
  have path := s.step_blocks e
  cases e with
  | packet hdr mem n =>
      rcases s.handleReceive_cases hdr mem n with (same | same) |
        ⟨buffer, alive, pending, good, result⟩
      · change (s.handleReceive hdr mem n).cb.state ≠ .timeWait
        rwa [same]
      · change (s.handleReceive hdr mem n).cb.state ≠ .timeWait
        rwa [same, doReceive_cb]
      · change (s.handleReceive hdr mem n).cb.state ≠ .timeWait
        rw [result]
        by_cases waiting : (s.inputChecked (hostPacket hdr mem buffer)).cb.state = .timeWait
        · rw [(commitNotifies_drops (entering_dropping awake waiting).2).1]
          simp
        · exact late (((inner_late (commitOutput_blocks _)).trans (commitRest_blocks _)).trans
            (received_blocks _)) waiting
  | slowTimo | delayTimer => exact late path awake
  | connect | fastTimo | send | receive | shutdown | close =>
      refine path_awake path (fun _ _ tag => ?_) awake
      rcases tag with rfl | rfl <;> exact ⟨fun p => by simp, by simp⟩
  | receiveError =>
      refine path_awake path (fun _ _ tag => ?_) awake
      rcases tag with rfl | rfl | rfl | rfl <;> exact ⟨fun p => by simp, by simp⟩
  | accept | mtu | setKeepalive | setSndBuf | setRcvBuf | cancel =>
      refine path_awake path (fun _ _ tag => ?_) awake
      obtain rfl : _ = _ := tag
      exact ⟨fun p => by simp, by simp⟩

theorem run_awake {s : Endpoint} (es : List Event) (awake : s.cb.state ≠ .timeWait) :
    (s.run es).cb.state ≠ .timeWait := by
  induction es generalizing s with
  | nil => exact awake
  | cons e es ih => exact ih (s.step_awake e awake)

theorem tag_opens {s : Endpoint} {e : Event} {a : Tag}
    (other : ∀ h, e ≠ .connect h ∧ e ≠ .accept h) (tag : e.Tags s a) :
    ∀ h, a ≠ .connect h ∧ a ≠ .accept h := by
  intro h
  cases e with
  | connect h => exact absurd rfl (other h).1
  | accept h => exact absurd rfl (other h).2
  | packet hdr mem n =>
      rcases tag with (rfl | rfl | rfl) | ⟨buffer, _, _, tag | rfl⟩
      · exact ⟨by simp, by simp⟩
      · exact ⟨by simp, by simp⟩
      · exact ⟨by simp, by simp⟩
      · constructor <;> rintro rfl <;> exact tag
      · exact ⟨by simp, by simp⟩
  | slowTimo | delayTimer => rcases tag with rfl | rfl | rfl <;> exact ⟨by simp, by simp⟩
  | fastTimo | send | receive | shutdown | close =>
      rcases tag with rfl | rfl <;> exact ⟨by simp, by simp⟩
  | receiveError => rcases tag with rfl | rfl | rfl | rfl <;> exact ⟨by simp, by simp⟩
  | mtu | setKeepalive | setSndBuf | setRcvBuf | cancel =>
      obtain rfl : _ = _ := tag
      exact ⟨by simp, by simp⟩

theorem ready_wire {s u : Endpoint} {pkt : Option UdtPacket} (selects : s.Selects pkt u) :
    (u.ready pkt).wire = s.wire := by
  obtain ⟨tPersist, rxtshift, result⟩ := u.ready_eq pkt
  rw [result]
  cases selects <;> rfl

theorem step_closed {s : Endpoint} {e : Event} (closed : s.cb.state = .closed)
    (other : ∀ h, e ≠ .connect h ∧ e ≠ .accept h) : (s.step e).cb.state = .closed := by
  refine (s.step_blocks e).invariant (I := fun t => t.cb.state = .closed) closed
    fun x a y closed met block => ?_
  refine Block.keeps (I := fun t => t.cb.state = .closed) block closed
    fun {u b _} whole tag closed block => ?_
  have change := block_state block whole
  rw [closed] at change
  refine change.closed ?_
  rcases tag with rfl | rfl | rfl | rfl
  · exact tag_opens other met
  all_goals exact fun h => ⟨by simp, by simp⟩

theorem run_closed {s : Endpoint} {es : List Event} (closed : s.cb.state = .closed)
    (other : ∀ e ∈ es, ∀ h, e ≠ .connect h ∧ e ≠ .accept h) : (s.run es).cb.state = .closed := by
  induction es generalizing s with
  | nil => exact closed
  | cons e es ih =>
      refine ih (step_closed closed (other e (by simp))) fun e member => other e (by simp [member])

/-- A closed endpoint has nothing to send, so a read and the end of a connection are silent. -/
theorem ending_silent {s t : Endpoint} {a : Tag} (block : Block s a t) (ending : Tag.Ending s a)
    (closed : s.cb.state = .closed) : t.wire = s.wire ∧ t.cb.state = .closed := by
  cases block with
  | output block =>
      refine ⟨?_, (congrArg Steady.state block.steady).trans closed⟩
      cases block with
      | idle =>
          unfold outputIdle
          split <;> rfl
      | consume =>
          obtain ⟨ops, rest, b, _, _, result⟩ := s.consumePendingData_spec
          rw [result]
      | send alive => exact absurd closed alive
      | @persist u canSend pkt select can =>
          obtain ⟨tPersist, shift, result⟩ := enterPersist_eq { u.ready pkt with cb.rxtshift := 0 }
          rw [result]
          exact ready_wire (outputSelect_selects select)
      | wait select => exact ready_wire (outputSelect_selects select)
      | record => rfl
  | read =>
      obtain ⟨done, rest, rb, waits, _, _, result⟩ := s.recvDataLoop_spec s.sk.recvOps
      rw [result]
      exact ⟨rfl, closed⟩
  | @delayed n =>
      obtain ⟨done, rest, rb, _, result⟩ :=
        ({ s with sk.delayWaits := n } : Endpoint).delayedLoop_spec s.sk.recvOps
      rw [result]
      exact ⟨rfl, closed⟩
  | notifySends =>
      rw [notifySends_eq]
      exact ⟨rfl, closed⟩
  | notifyHandlers =>
      rw [postHandlers_eq]
      exact ⟨rfl, closed⟩
  | notified | cancel => exact ⟨rfl, closed⟩
  | _ => rcases ending with same | same | same <;> cases same

theorem path_silent {C : Endpoint → Tag → Prop} {s t : Endpoint} (path : BlockPath C s t)
    (ending : ∀ s a, C s a → Tag.Ending s a) (closed : s.cb.state = .closed) :
    t.wire = s.wire ∧ t.cb.state = .closed := by
  refine path.invariant (I := fun t => t.wire = s.wire ∧ t.cb.state = .closed) ⟨rfl, closed⟩
    fun x a y inv met block => ?_
  obtain ⟨wire, state⟩ := ending_silent block (ending x a met) inv.2
  exact ⟨wire.trans inv.1, state⟩

/-- Everything `commit_notifies` does after the reset, in a closed endpoint. -/
theorem commitClosed_wire {s : Endpoint} (closed : s.cb.state = .closed) :
    s.commitRead.commitWrite.commitDrop.wire = s.wire := by
  have inner : ∀ {x y : Endpoint}, BlockPath Tag.Inner x y → x.cb.state = .closed →
      y.wire = x.wire ∧ y.cb.state = .closed := fun path => path_silent path fun _ _ same => .inl same
  have read : s.commitRead.wire = s.wire ∧ s.commitRead.cb.state = .closed := by
    unfold commitRead
    split
    · obtain ⟨wire, state⟩ := inner s.notifyReadable_blocks closed
      exact ⟨wire, state⟩
    · exact ⟨rfl, closed⟩
  have write : ∀ x : Endpoint, x.cb.state = .closed →
      x.commitWrite.wire = x.wire ∧ x.commitWrite.cb.state = .closed := by
    intro x closed
    unfold commitWrite
    split
    · obtain ⟨wire, state⟩ := inner x.onWritable_blocks closed
      exact ⟨wire, state⟩
    · exact ⟨rfl, closed⟩
  have drop : ∀ x : Endpoint, x.cb.state = .closed → x.commitDrop.wire = x.wire := by
    intro x closed
    unfold commitDrop Endpoint.drop
    split
    · dsimp only
      split
      · exact (path_silent (onDisconnected_blocks _) (fun _ _ ending => ending)
          (s := { x with cb.lastError := x.cb.lastError }) closed).1
      · exact (path_silent x.onDisconnected_blocks (fun _ _ ending => ending) closed).1
    · rfl
  obtain ⟨wire, state⟩ := write _ read.2
  rw [drop _ state, wire, read.1]

/-- In CLOSED a packet that is no reset itself is answered with a reset, and nothing else. -/
theorem closed_resets {s : Endpoint} (closed : s.cb.state = .closed) {hdr : UdtHdr}
    (mem : List UChar) {n buffer : Nat} (alive : s.sk.nextLayer = true)
    (pending : s.sk.rcvPkt = some buffer) (good : intact hdr n) (noRst : hasRst hdr.flags = false) :
    ∃ d, (s.step (.packet hdr mem n)).wire = s.wire ++ [d] ∧
      d.hdr.ntoh.flags = UdtHdr.TH_RST := by
  have noted : (s.inputChecked (hostPacket hdr mem buffer)).wire = s.wire ∧
      (s.inputChecked (hostPacket hdr mem buffer)).cb.state = .closed ∧
      (s.inputChecked (hostPacket hdr mem buffer)).cb.flags.needReset = true := by
    have sampled : ∀ ack, (updateRtt { s with
        cb.pseq := (hostPacket hdr mem buffer).hdr.seq, cb.idle := 0, cb.tKeep := sKeepidle }
        ack).wire = s.wire ∧ (updateRtt { s with
        cb.pseq := (hostPacket hdr mem buffer).hdr.seq, cb.idle := 0, cb.tKeep := sKeepidle }
        ack).cb.state = .closed := by
      intro ack
      unfold updateRtt
      split
      · obtain ⟨srtt, rttvar, rxtcur, result⟩ := xmitTimer_eq { s with
          cb.pseq := (hostPacket hdr mem buffer).hdr.seq, cb.idle := 0, cb.tKeep := sKeepidle }
          s.cb.rtt
        rw [result]
        exact ⟨rfl, closed⟩
      · exact ⟨rfl, closed⟩
    obtain ⟨wire, state⟩ := sampled (hostPacket hdr mem buffer).hdr.pseq
    have plain : (!hasRst (hostPacket hdr mem buffer).hdr.flags) = true := by
      rw [show (hostPacket hdr mem buffer).hdr.flags = hdr.flags from rfl, noRst]
      rfl
    rw [inputChecked]
    dsimp only
    rw [if_pos state, if_pos plain]
    exact ⟨wire, state, rfl⟩
  change ∃ d, (s.handleReceive hdr mem n).wire = s.wire ++ [d] ∧ d.hdr.ntoh.flags = UdtHdr.TH_RST
  rw [handleReceive_good alive pending good]
  obtain ⟨wire, state, reset⟩ := noted
  generalize s.inputChecked (hostPacket hdr mem buffer) = x at wire state reset ⊢
  have unsent : x.commitOutput = x := by
    rw [commitOutput, output, if_pos state, ite_self]
  have rest : ∀ y : Endpoint, y.received.wire = y.wire := by
    intro y
    unfold received pktConsumed
    split
    · next z same =>
        obtain ⟨pkt, next, _, result⟩ := ({ z with sk.rcvPkt := none } : Endpoint).doReceive_eq
        rw [result]
        split at same <;> cases same
        rfl
    · next z same =>
        obtain ⟨pkt, next, _, result⟩ := z.doReceive_eq
        rw [result]
        split at same <;> cases same
        rfl
  rw [rest, commitNotifies, unsent, commitReset, if_pos reset,
    commitClosed_wire (s := { x.resetPeer with cb.flags.needReset := false }) state]
  refine ⟨_, by rw [← wire]; rfl, ?_⟩
  rw [UdtHdr.ntoh_hton]

/-- Once `update_ack_state` or `handle_fin` has put the endpoint in TIME_WAIT, the same call of
`input` leaves it CLOSED with the 2MSL timer still armed, and until the user opens it again every
FIN is answered with a reset instead of an acknowledgement. -/
theorem time_wait_never_lasts (fack sndSeq rcvSeq : Word) (env : Env) (es : List Event)
    (hdr : UdtHdr) (mem : List UChar) (n : Nat)
    (entered : ((init fack sndSeq rcvSeq env).run es).EntersTimeWait hdr mem n) :
    let t := ((init fack sndSeq rcvSeq env).run es).step (.packet hdr mem n)
    ¬ t.Lingers ∧ t.cb.state = .closed ∧ t.cb.t2msl = 2 * TCPTV_MSL ∧
      ∀ more, (∀ e ∈ more, ∀ h, e ≠ .connect h ∧ e ≠ .accept h) →
        ∀ hdr mem n, (t.run more).FinArrives hdr n →
          ∃ d, (t.run more).answers (.packet hdr mem n) = [d] ∧ d.hdr.ntoh.flags = UdtHdr.TH_RST := by
  intro t
  obtain ⟨alive, good, buffer, pending, waiting⟩ := entered
  have awake : ((init fack sndSeq rcvSeq env).run es).cb.state ≠ .timeWait :=
    run_awake es (by simp [init, UdtCb.init])
  obtain ⟨timer, drop⟩ := entering_dropping awake waiting
  have result : t = _ := handleReceive_good alive pending good
  obtain ⟨closed, kept⟩ := commitNotifies_drops drop
  rw [← result] at closed kept
  refine ⟨?_, closed, kept.trans timer, ?_⟩
  · intro lingers
    have state := (lingers [] trivial).1
    rw [show t.run [] = t from rfl, closed] at state
    cases state
  · intro more quiet hdr mem n fin
    obtain ⟨buffer, waits⟩ := Option.isSome_iff_exists.mp fin.pending
    obtain ⟨d, wire, flags⟩ := closed_resets (run_closed closed quiet) mem fin.alive waits
      fin.good fin.noRst
    exact ⟨d, by rw [answers, wire, List.drop_left], flags⟩

/-- A passive close: the peer's FIN is the sixth event. -/
def finAfterShutdown : List Event :=
  [.accept 0, .datagram ⟨0, UdtHdr.TH_SYN, 1000, 0, 20, 100, 0, 0⟩ [],
    .datagram ⟨0, UdtHdr.TH_ACK, 1000, 0, 20, 101, 1, 0⟩ [], .shutdown 1,
    .datagram ⟨0, UdtHdr.TH_ACK, 1000, 0, 20, 101, 2, 0⟩ []]

def lastFin : UdtHdr := ⟨0, UdtHdr.TH_FIN ||| UdtHdr.TH_ACK, 1000, 0, 20, 101, 2, 0⟩

theorem finAfterShutdown_enters :
    ((init 0 0 0 Env.zero).run finAfterShutdown).EntersTimeWait lastFin.hton [] 20 :=
  ⟨by decide +kernel, by decide +kernel, 2, by decide +kernel, by decide +kernel⟩

theorem time_wait_never_lasts_shutdown :
    (((init 0 0 0 Env.zero).run finAfterShutdown).step (.packet lastFin.hton [] 20)).cb.state =
      .closed :=
  (time_wait_never_lasts 0 0 0 Env.zero finAfterShutdown lastFin.hton [] 20
    ⟨by decide +kernel, by decide +kernel, 2, by decide +kernel, by decide +kernel⟩).2.1

/-- The endpoint that should linger is closed at once, and resets the peer's repeated FIN. -/
theorem time_wait_is_closed :
    ((init 0 0 0 Env.zero).run finAfterShutdown).EntersTimeWait lastFin.hton [] 20 ∧
      ¬ (((init 0 0 0 Env.zero).run finAfterShutdown).step (.packet lastFin.hton [] 20)).Lingers ∧
      ((((init 0 0 0 Env.zero).run finAfterShutdown).step (.packet lastFin.hton [] 20)).answers
        (.packet lastFin.hton [] 20)).map (·.hdr.ntoh.flags) = [UdtHdr.TH_RST] := by
  refine ⟨finAfterShutdown_enters, ?_, by decide +kernel⟩
  intro lingers
  exact absurd (lingers [] trivial).1 (by decide +kernel)

end Endpoint
end UdtBoost
