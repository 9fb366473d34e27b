import UdtBoost.SendBlocks

/-! The numbers of the sending half over whole events. They are in order as long as a socket has one
connection, the user sends while it is open, and less than half of the circle is queued. -/
namespace UdtBoost

namespace Sender

variable {x y : Sender} {t t' : Half}

/-- The numbers of an open connection. -/
structure Open (x : Sender) : Prop where
  laid : x.Laid
  order : x.off x.nxt ≤ x.off x.max

/-- Before a connection is open what was sent last is numbered last, and nothing is timed in LISTEN. -/
structure Opening (x : Sender) (tRexmt : Half) : Prop where
  fresh : x.Fresh
  quiet : x.state = .listen → tRexmt = 0 ∧ x.una = x.max ∧ x.nxt = x.max
  spoken : x.state = .synSent ∨ x.state = .synReceived → x.nxt = x.max ∧ (tRexmt ≠ 0 → x.max = 1)

/-- The numbers of an endpoint whose socket is not closed. -/
def Numbered (x : Sender) (tRexmt : Half) : Prop :=
  x.nextLayer = true → (x.connected = true → x.Open) ∧ (x.connected = false → x.Opening tRexmt)

theorem Numbered.keep (numbered : x.Numbered t) (alive : y.nextLayer = x.nextLayer)
    (connected : y.connected = x.connected) (open_ : x.Open → y.Open)
    (opening : x.Opening t → y.Opening t') : y.Numbered t' := by
  intro here
  obtain ⟨whole, fresh⟩ := numbered (alive.symm.trans here)
  exact ⟨fun yes => open_ (whole (connected.symm.trans yes)),
    fun no => opening (fresh (connected.symm.trans no))⟩

/-- The highest number is no lower than it was. -/
structure Rises (x y : Sender) : Prop where
  una : y.una = x.una
  max : x.off x.max ≤ x.off y.max

theorem Rises.refl (x : Sender) : x.Rises x := ⟨rfl, Nat.le_refl _⟩

theorem Rises.trans {z : Sender} (first : x.Rises y) (second : y.Rises z) : x.Rises z where
  una := second.una.trans first.una
  max := by
    have later := second.max
    unfold off at later
    rw [first.una] at later
    exact first.max.trans later

theorem Fresh.small (fresh : x.Fresh) : x.una.toNat ≤ 1 ∧ x.max.toNat ≤ 1 ∧ x.nxt.toNat ≤ 1 :=
  ⟨fresh.una.trans fresh.max, fresh.max, fresh.nxt⟩

/-- Only a SYN is outstanding. -/
theorem Fresh.max_of_outstanding (fresh : x.Fresh) (some_ : x.una ≠ x.max) : x.max = 1 := by
  have una := fresh.una
  have max := fresh.max
  bv_omega

/-- The retransmission timer runs only over something outstanding. -/
theorem Opening.timer (o : x.Opening t) (outstanding : t' ≠ 0 → x.una ≠ x.max) : x.Opening t' where
  fresh := o.fresh
  quiet listen := by
    obtain ⟨_, una, nxt⟩ := o.quiet listen
    exact ⟨by_contra fun on => outstanding on una, una, nxt⟩
  spoken handshake := ⟨(o.spoken handshake).1, fun on => o.fresh.max_of_outstanding (outstanding on)⟩

/-- The connection is given up. -/
theorem Open.closed (o : x.Open) : Open { x with state := .closed } :=
  ⟨o.laid.move (by simp [TcpState.inHandshake]) fun _ => by simp [TcpState.isClosing], o.order⟩

theorem Opening.closed (o : x.Opening t) : Opening { x with state := .closed } t :=
  ⟨{ o.fresh with state := .inl rfl }, by simp, by simp⟩

/-- A SYN is accepted: in LISTEN our own numbers start over. -/
theorem Opening.greeted (o : x.Opening t) (handshake : x.state.inHandshake) : Opening
    (if x.state = .listen then { x with
      state := .synReceived, iss := 0, una := 0, nxt := 0, max := 0 }
    else { x with state := .synReceived }) t := by
  split
  · next listen =>
      refine ⟨{ o.fresh with
        state := .inr (.inr (.inr rfl)), iss := rfl, una := Nat.le_refl _
        max := Nat.zero_le _, nxt := Nat.zero_le _ }, by simp, fun _ => ⟨rfl, fun on => ?_⟩⟩
      exact absurd (o.quiet listen).1 on
  · next other =>
      have spoken := o.spoken (handshake.resolve_left other)
      exact ⟨{ o.fresh with state := .inr (.inr (.inr rfl)) }, by simp, fun _ => spoken⟩

/-- Everything is acknowledged, also the FIN when it was sent. -/
theorem Open.acked {c : Bool} (o : x.Open) (t : Half) :
    Open { x with state := x.state.acked x.sentfin, connected := c, tPersist := t } := by
  have past : ¬ (x.state.acked x.sentfin).inHandshake := by
    have before := o.laid.open_
    cases state : x.state <;> cases x.sentfin <;>
      simp_all [TcpState.acked, TcpState.inHandshake]
  refine ⟨{ (o.laid.move past fun sent => ?_).persist t with }, o.order⟩
  have before := o.laid.open_
  obtain ⟨_, _, established, waiting, _⟩ := o.laid.fin sent
  rw [sent]
  cases state : x.state <;>
    simp_all [TcpState.acked, TcpState.isClosing, TcpState.inHandshake]

/-- The peer's FIN has come. -/
theorem Open.finned (o : x.Open) : Open { x with state := x.state.finned } := by
  have past : ¬ x.state.finned.inHandshake := by
    have before := o.laid.open_
    cases state : x.state <;> simp_all [TcpState.finned, TcpState.inHandshake]
  refine ⟨o.laid.move past fun sent => ?_, o.order⟩
  obtain ⟨_, _, established, waiting, unacked⟩ := o.laid.fin sent
  cases state : x.state <;> simp_all [TcpState.finned, TcpState.isClosing]

theorem Opening.finned (o : x.Opening t) : Opening { x with state := x.state.finned } t := by
  have same : x.state.finned = x.state := by
    rcases o.fresh.state with state | state | state | state <;> rw [state] <;> rfl
  rw [same]
  exact o

/-- The user closes the sending half: a FIN is to be sent, which was not sent before. -/
theorem Open.shutdown (o : x.Open) : Open { x with
    state := if x.state = .established then .finWait1
      else if x.state = .closeWait then .lastAck else x.state } := by
  refine ⟨o.laid.move ?_ fun sent => ?_, o.order⟩
  · have before := o.laid.open_
    split
    · simp [TcpState.inHandshake]
    split
    · simp [TcpState.inHandshake]
    · exact before
  · obtain ⟨_, _, established, waiting, unacked⟩ := o.laid.fin sent
    rw [if_neg established, if_neg waiting]
    exact ⟨established, waiting, unacked⟩

theorem Opening.shutdown (o : x.Opening t) : Opening { x with
    state := if x.state = .established then .finWait1
      else if x.state = .closeWait then .lastAck else x.state } t := by
  have same : (if x.state = .established then .finWait1
      else if x.state = .closeWait then .lastAck else x.state) = x.state := by
    rcases o.fresh.state with state | state | state | state <;> rw [state] <;> rfl
  rw [same]
  exact o

/-- New data is acknowledged. -/
theorem Open.ack {a : Word} {gone rest : List UdtPacket} (o : x.Open) (above : seqGt a x.una)
    (sent : seqLe a x.max) (split : x.buf.pkts = gone ++ rest)
    (kept : ∀ q, rest.head? = some q → seqGe q.hdr.seq a)
    (closing : x.sentfin = true → x.state.isClosing → a ≠ x.max) : Open { x with
      una := a, nxt := if seqLt x.nxt a then a else x.nxt
      buf := x.buf.dropFront gone rest
      retransData := gone.foldl Endpoint.retransLeft x.retransData } := by
  refine ⟨o.laid.ack above sent split kept closing, ?_⟩
  have half := o.laid.half
  have nxt := o.laid.nxt
  have max := o.laid.max
  have order := o.order
  have near : x.off a < 2 ^ 31 := by
    rw [seqGt_iff] at above
    exact above.2
  have inside : x.off a ≤ x.off x.max := by
    have within := (seqGt_iff_off near (by omega)).not.mp (not_not.mpr sent)
    omega
  have shift : ∀ {b}, x.off a ≤ x.off b → (b - a).toNat + x.off a = x.off b :=
    fun ahead => toNat_rebase ahead
  have last := shift inside
  change ((if seqLt x.nxt a then a else x.nxt) - a).toNat ≤ (x.max - a).toNat
  split
  · simp
  · next behind =>
      rw [seqLt_iff_off (by omega) near] at behind
      have moved := shift (Nat.le_of_not_lt behind)
      omega

theorem Opening.ack {a : Word} {b : UdtBuf} (o : x.Opening t) (above : seqGt a x.una)
    (sent : seqLe a x.max) (pkts : b.pkts = []) (cc : b.cc = 0) : Opening { x with
      una := a, nxt := if seqLt x.nxt a then a else x.nxt, buf := b, retransData := 0 } t := by
  obtain ⟨una, max, nxt⟩ := o.fresh.small
  have order := o.fresh.una
  rw [seqGt_iff] at above
  rw [seqLe_iff] at sent
  have inside : a.toNat ≤ x.max.toNat := by bv_omega
  have ahead : x.una.toNat < a.toNat := by bv_omega
  refine ⟨{ o.fresh with una := inside, nxt := ?_, retrans := rfl, pkts := pkts, cc := cc },
    fun listen => ?_, fun handshake => ?_⟩
  · change (if seqLt x.nxt a then a else x.nxt).toNat ≤ 1
    split
    · exact inside.trans max
    · exact nxt
  · have una := (o.quiet listen).2.1
    rw [una] at ahead
    omega
  · obtain ⟨last, timed⟩ := o.spoken handshake
    have still : ¬ seqLt x.nxt a := by
      rw [last, seqLt_iff]
      bv_omega
    exact ⟨(if_neg still).trans last, timed⟩

/-- Putting `m_snd_nxt` back after a fast retransmission leaves it below `m_snd_max`. -/
theorem Rises.restore (rises : x.Rises y) (before : x.Open) (after : y.Open) :
    Open { y with nxt := x.nxt } := by
  have off : ∀ a, y.off a = x.off a := by
    intro a
    unfold off
    rw [rises.una]
  have order : y.off x.nxt ≤ y.off y.max := by
    rw [off, off]
    exact before.order.trans rises.max
  exact ⟨after.laid.rewind (order.trans after.laid.max), order⟩

end Sender

/-- A segment sent outside the handshake found the numbers of its state in order. -/
def Transmission.Placed (d : Transmission) : Prop :=
  ∀ x : Endpoint, x.toConn = d.before → ¬ x.cb.state.inHandshake → x.sender.Laid

namespace Endpoint

variable {s t u : Endpoint} {pkt : Option UdtPacket}

open Sender (Open Opening Numbered Rises)

/-- The numbers are in order, and were whenever a segment was sent. -/
structure InOrder (s : Endpoint) : Prop where
  numbered : s.sender.Numbered s.cb.tRexmt
  shut : s.sk.nextLayer = false → s.cb.state = .closed
  logged : ∀ d ∈ s.sent, d.Placed

/-- Where a segment lies when no SYN is sent. -/
theorem segment_inside {u : Endpoint} (laid : u.sender.Laid) (fits : Fits u.sender pkt) :
    let start := u.toConn.core.rewound (u.sendFlags pkt) u.cb.sndNxt
    u.sender.off (start + Conn.pktLen pkt) = u.sender.off start + (Conn.pktLen pkt).toNat ∧
      u.sender.off start + (Conn.pktLen pkt).toNat ≤ u.sender.reach := by
  have half := laid.half
  have len := pktLen_le pkt
  cases fin : hasFin (u.sendFlags pkt) with
  | true =>
      obtain ⟨stop, inside, _⟩ := fin_start laid fits fin
      have closing := (sendFlags_fin fin).1
      have last : u.sender.off u.sk.sndBuf.seq = u.sender.bytes :=
        laid.off_seq fun sent => (laid.fin sent).2.2.2.2 closing
      have most := u.sender.bytes_le
      dsimp only
      generalize u.toConn.core.rewound (u.sendFlags pkt) u.cb.sndNxt = start at stop inside ⊢
      have ends : u.sender.off (start + Conn.pktLen pkt) =
          u.sender.off start + (Conn.pktLen pkt).toNat :=
        toNat_add_sub' (by unfold Sender.off at *; omega)
      refine ⟨ends, ?_⟩
      rw [← ends, stop, last]
      exact most
  | false =>
      have noSyn : hasSyn (u.sendFlags pkt) = false := by
        rw [sendFlags_syn, Bool.eq_false_iff]
        intro syn
        exact laid.open_ (.inr ((TcpState.hasSyn_outflags _).mp syn))
      have first : u.toConn.core.rewound (u.sendFlags pkt) u.cb.sndNxt = u.cb.sndNxt := by
        rw [rewound_plain noSyn, if_neg (by simp [fin])]
      obtain ⟨last, within, _⟩ := fits.ends laid
      dsimp only
      rw [first]
      exact ⟨last, within⟩

/-- A segment leaves `m_snd_nxt` at its end, or a probe at its start, and `m_snd_max` no lower. -/
theorem transmit_open {u : Endpoint} (laid : u.sender.Laid) (fits : Fits u.sender pkt) (raw : Word)
    (d : Transmission) :
    (u.transmit pkt raw d).sender.Open ∧ u.sender.Rises (u.transmit pkt raw d).sender := by
  obtain ⟨after, una, grown⟩ := transmit_laid laid fits raw d
  obtain ⟨t, result, _⟩ := u.transmit_sender pkt raw d
  obtain ⟨ends, inside⟩ := segment_inside laid fits
  have half := laid.half
  have half' := after.half
  have nxt := after.nxt
  have max := after.max
  have before : u.sender.off u.sender.max ≤ u.sender.reach := laid.max
  have off : ∀ a, (u.transmit pkt raw d).sender.off a = u.sender.off a := by
    intro a
    unfold Sender.off
    rw [una]
  simp only [off] at nxt max
  have number : (u.transmit pkt raw d).sender.nxt = u.sendNxt (u.sendFlags pkt) (Conn.pktLen pkt) := by
    rw [result]
  have highest : (u.transmit pkt raw d).sender.max =
      seqMax (u.sendEnd (u.sendFlags pkt) (Conn.pktLen pkt)) u.sender.max := by
    rw [result]
    rfl
  rw [number] at nxt
  rw [highest] at max
  have small : u.sender.off (u.sendEnd (u.sendFlags pkt) (Conn.pktLen pkt)) < 2 ^ 31 ∧
      u.sender.off (u.sendNxt (u.sendFlags pkt) (Conn.pktLen pkt)) ≤
        u.sender.off (u.sendEnd (u.sendFlags pkt) (Conn.pktLen pkt)) := by
    unfold sendNxt at nxt ⊢
    unfold sendEnd at nxt ⊢
    split at nxt
    · next probe =>
        simp only [probe, if_true]
        omega
    · next probe =>
        simp only [probe, Bool.false_eq_true, if_false]
        exact ⟨by omega, Nat.le_refl _⟩
  have raised := Sender.off_seqMax (x := u.sender) small.1 (by omega : u.sender.off u.sender.max < 2 ^ 31)
  constructor
  · refine ⟨after, ?_⟩
    rw [off, off, number, highest, raised]
    omega
  · refine ⟨una, ?_⟩
    rw [highest, raised]
    omega

/-- What one block of `output` leaves of an open connection's numbers. -/
theorem Output.open_ (block : Output s t) (o : s.sender.Open) :
    t.sender.Open ∧ s.sender.Rises t.sender := by
  have chosen : ∀ {pkt u}, s.Selects pkt u → (u.ready pkt).sender.Laid ∧
      Fits (u.ready pkt).sender pkt ∧ s.sender.Rises (u.ready pkt).sender ∧
        (pkt = none → (u.ready pkt).sender.Open) := by
    intro pkt u selects
    obtain ⟨laid, fits, reach⟩ := selects.laid o.laid
    obtain ⟨tPersist, ready, _⟩ := u.ready_sender pkt
    rw [ready]
    refine ⟨laid.persist tPersist, fits, ?_⟩
    cases selects with
    | nothing => exact ⟨⟨rfl, Nat.le_refl _⟩, fun _ => ⟨laid.persist tPersist, o.order⟩⟩
    | closedWindow =>
        have first : s.sender.off s.cb.sndUna ≤ s.sender.off s.cb.sndMax :=
          (Sender.off_una s.sender).trans_le (Nat.zero_le _)
        exact ⟨⟨rfl, Nat.le_refl _⟩, fun _ => ⟨laid.persist tPersist, first⟩⟩
    | fresh => exact ⟨⟨rfl, Nat.le_refl _⟩, fun none => by contradiction⟩
    | again => exact ⟨⟨rfl, Nat.le_refl _⟩, fun none => by contradiction⟩
  -- a packet of the queue has payload, so without payload none was chosen
  have empty : ∀ {pkt : Option UdtPacket} {x : Sender}, Fits x pkt → Conn.pktLen pkt = 0 →
      pkt = none := by
    intro pkt x fits zero
    cases pkt with
    | none => rfl
    | some p =>
        have some_ := (fits p rfl).2.1
        rw [← pktLen_toNat, zero] at some_
        contradiction
  cases block with
  | idle =>
      have same : s.outputIdle.sender = s.sender := by
        unfold outputIdle UdtCb.slowStart
        split
        · split <;> rfl
        · rfl
      rw [same]
      exact ⟨o, .refl _⟩
  | consume =>
      obtain ⟨ops, rest, b, queue, appended, result⟩ := s.consumePendingData_spec
      rw [result]
      exact ⟨⟨(o.laid.consume s.cb.maxseg.isLt queue appended).1, o.order⟩, rfl, Nat.le_refl _⟩
  | @send u canSend raw pkt env d alive select must before dgram =>
      obtain ⟨laid, fits, rises, _⟩ := chosen (outputSelect_selects select)
      obtain ⟨after, risen⟩ := transmit_open (u := { u.ready pkt with env }) laid fits raw d
      exact ⟨after, rises.trans risen⟩
  | @persist u canSend pkt select can quiet =>
      obtain ⟨_, fits, rises, still⟩ := chosen (outputSelect_selects select)
      have o := still (empty fits quiet.1)
      obtain ⟨tPersist, _, result⟩ := enterPersist_eq { u.ready pkt with cb.rxtshift := 0 }
      rw [result]
      exact ⟨⟨o.laid.persist tPersist, o.order⟩, rises.una, rises.max⟩
  | @wait u canSend pkt select quiet =>
      obtain ⟨_, fits, rises, still⟩ := chosen (outputSelect_selects select)
      exact ⟨still (empty fits quiet.1), rises⟩
  | record => exact ⟨o, .refl _⟩

theorem output_open (o : s.sender.Open) : s.output.sender.Open ∧ s.sender.Rises s.output.sender :=
  s.output_blocks.keeps (I := fun t => t.sender.Open ∧ s.sender.Rises t.sender) ⟨o, .refl _⟩
    fun _ _ inv block => ⟨(block.open_ inv.1).1, inv.2.trans (block.open_ inv.1).2⟩

/-- A segment arms the timer only over something outstanding. -/
theorem transmit_tRexmt (u : Endpoint) (pkt : Option UdtPacket) (raw : Word) (d : Transmission) :
    (u.transmit pkt raw d).cb.tRexmt = u.cb.tRexmt ∨
      (u.transmit pkt raw d).cb.sndNxt ≠ u.cb.sndUna := by
  have armed : ∀ x : Endpoint, x.armRexmt.cb.tRexmt = x.cb.tRexmt ∨
      x.armRexmt.cb.sndNxt ≠ x.cb.sndUna := by
    intro x
    unfold armRexmt UdtCb.leavePersist
    split
    · next arms =>
        right
        dsimp only
        split <;> exact arms.2
    · exact .inl rfl
  have advanced : ∀ (flags : UChar) (len : Word),
      ((u.outputRewind flags).outputAdvance flags len).cb.tRexmt = u.cb.tRexmt ∨
        ((u.outputRewind flags).outputAdvance flags len).cb.sndNxt ≠ u.cb.sndUna := by
    intro flags len
    rw [outputRewind_eq]
    unfold outputAdvance
    split
    · rw [advanceNxt_eq]
      obtain ⟨rtt, rtseq, raised⟩ := raiseSndMax_eq
        ({ u with
          cb.sndNxt := u.toConn.core.rewound flags u.cb.sndNxt + synLen flags + finLen flags + len
          cb.flags.sentfin := u.cb.flags.sentfin || hasFin flags } : Endpoint)
        (u.toConn.core.rewound flags u.cb.sndNxt)
      rw [raised]
      exact armed _
    · split <;> exact .inl rfl
  have here := advanced (u.sendFlags pkt) (Conn.pktLen pkt)
  unfold transmit outputSend outputSent
  dsimp only
  generalize (u.outputRewind (u.sendFlags pkt)).outputAdvance (u.sendFlags pkt) (Conn.pktLen pkt) = x
    at here ⊢
  split <;> exact here

/-- A SYN is sent whatever else is due. -/
theorem mustSend_of_syn (handshake : u.cb.state = .synSent ∨ u.cb.state = .synReceived) :
    u.mustSend (u.sendFlags pkt) = true := by
  have syn : hasFlag (u.sendFlags pkt) (UdtHdr.TH_SYN ||| UdtHdr.TH_RST) = true := by
    rw [hasFlag_or, Bool.or_eq_true]
    left
    change hasSyn (u.sendFlags pkt) = true
    rw [sendFlags_syn]
    exact (TcpState.hasSyn_outflags _).mpr handshake
  simp [Conn.mustSend, syn]

/-- In LISTEN a segment moves no number. -/
theorem transmit_listening {u : Endpoint} (fresh : u.sender.Fresh) (listen : u.cb.state = .listen)
    (raw : Word) (d : Transmission) :
    (u.transmit none raw d).cb.sndNxt = u.cb.sndNxt ∧
      (u.transmit none raw d).cb.sndMax = seqMax u.cb.sndNxt u.cb.sndMax ∧
      (u.transmit none raw d).cb.sndUna = u.cb.sndUna ∧
      (u.transmit none raw d).cb.state = .listen := by
  obtain ⟨t, result, _⟩ := u.transmit_sender none raw d
  have calm : u.probing = false := (u.not_probing_iff).mpr (.inr fresh.tPersist)
  have noFin : hasFin (u.sendFlags none) = false := by
    rw [Bool.eq_false_iff]
    intro fin
    have closing := (sendFlags_fin fin).1
    rw [listen] at closing
    revert closing
    decide
  have noSyn : hasSyn (u.sendFlags none) = false := by
    rw [sendFlags_syn, listen]
    rfl
  have start : u.toConn.core.rewound (u.sendFlags none) u.cb.sndNxt = u.cb.sndNxt := by
    simp [Core.rewound, noSyn, noFin]
  have stop : u.sendEnd (u.sendFlags none) (Conn.pktLen none) = u.cb.sndNxt := by
    simp [sendEnd, calm, start, synLen, finLen, noSyn, noFin, Conn.pktLen]
  have nxt : u.sendNxt (u.sendFlags none) (Conn.pktLen none) = u.cb.sndNxt := by
    rw [sendNxt, calm, if_neg Bool.false_ne_true, stop]
  rw [stop, nxt] at result
  generalize u.transmit none raw d = v at result ⊢
  exact ⟨congrArg Sender.nxt result, congrArg Sender.max result, congrArg Sender.una result,
    (congrArg Sender.state result).trans listen⟩

/-- Nothing is timed in LISTEN, and everything is acknowledged. -/
def Listening (x : Sender) (tRexmt : Half) : Prop :=
  x.state = .listen → tRexmt = 0 ∧ x.una = x.max ∧ x.nxt = x.max

theorem transmit_opening {u : Endpoint} (fresh : u.sender.Fresh)
    (listening : Listening u.sender u.cb.tRexmt) (raw : Word) (d : Transmission) :
    (u.transmit none raw d).sender.Opening (u.transmit none raw d).cb.tRexmt := by
  obtain ⟨after, spoken⟩ := transmit_fresh fresh raw d
  have timer := u.transmit_tRexmt none raw d
  have heard := fun listen => transmit_listening fresh listen raw d
  obtain ⟨_, result, _⟩ := u.transmit_sender none raw d
  generalize u.transmit none raw d = v at after spoken timer heard result ⊢
  have state : v.cb.state = u.cb.state := congrArg Sender.state result
  refine ⟨after, fun listen => ?_, fun handshake => ?_⟩
  · have listen : u.cb.state = .listen := state.symm.trans listen
    obtain ⟨off, una, nxt⟩ := listening listen
    obtain ⟨nxt', max', una', _⟩ := heard listen
    have nxt : u.cb.sndNxt = u.cb.sndMax := nxt
    have una : u.cb.sndUna = u.cb.sndMax := una
    have max' : v.cb.sndMax = u.cb.sndMax := by
      rw [max', nxt, seqMax, ite_self]
    refine ⟨?_, (una'.trans una).trans max'.symm, (nxt'.trans nxt).trans max'.symm⟩
    rcases timer with still | moved
    · exact still.trans off
    · exact absurd ((nxt'.trans nxt).trans una.symm) moved
  · have handshake : u.cb.state = .synSent ∨ u.cb.state = .synReceived := by
      rw [← state]
      exact handshake
    obtain ⟨nxt, max⟩ := spoken handshake
    exact ⟨nxt.trans max.symm, fun _ => max⟩

/-- What a pass of `output` chooses before the connection is open. -/
theorem selects_opening (selects : s.Selects pkt u) (o : s.sender.Opening s.cb.tRexmt) :
    pkt = none ∧ u.sender.Fresh ∧ Listening u.sender u.cb.tRexmt := by
  obtain ⟨rfl, first⟩ := selects_fresh selects o.fresh
  refine ⟨rfl, first, ?_⟩
  cases selects with
  | nothing => exact o.quiet
  | closedWindow => exact fun listen => ⟨rfl, (o.quiet listen).2.1, (o.quiet listen).2.1⟩

/-- What one block of `output` leaves of the numbers before the connection is open. -/
theorem Output.opening (block : Output s t) (o : s.sender.Opening s.cb.tRexmt) :
    t.sender.Opening t.cb.tRexmt := by
  cases block with
  | idle =>
      have same : s.outputIdle.sender = s.sender ∧ s.outputIdle.cb.tRexmt = s.cb.tRexmt := by
        unfold outputIdle UdtCb.slowStart
        split
        · split <;> exact ⟨rfl, rfl⟩
        · exact ⟨rfl, rfl⟩
      rw [same.1, same.2]
      exact o
  | consume =>
      have fresh := (Output.consume.fresh o.fresh).1
      obtain ⟨ops, rest, b, queue, appended, result⟩ := s.consumePendingData_spec
      rw [result] at fresh ⊢
      exact ⟨fresh, o.quiet, o.spoken⟩
  | @send u canSend raw pkt env d alive select must before dgram =>
      obtain ⟨rfl, first, listening⟩ := selects_opening (outputSelect_selects select) o
      exact transmit_opening (u := { u with env }) first listening raw d
  | @persist u canSend pkt select can quiet =>
      obtain ⟨rfl, first, _⟩ := selects_opening (outputSelect_selects select) o
      have pending : u.sk.pendingData = 0 := first.pending
      have cc : u.sk.sndBuf.cc = 0 := first.cc
      have can : u.canPersist = true := can
      simp [Conn.canPersist, UdtSocket.totalBufferSize, pending, cc] at can
  | @wait u canSend pkt select quiet =>
      obtain ⟨rfl, first, listening⟩ := selects_opening (outputSelect_selects select) o
      have quiet : u.mustSend (u.sendFlags none) = false := quiet.2
      refine ⟨first, listening, fun handshake => ?_⟩
      have must : u.mustSend (u.sendFlags none) = true := mustSend_of_syn handshake
      exact absurd (quiet.symm.trans must) Bool.false_ne_true
  | record => exact o

theorem InOrder.same (o : s.InOrder) (sender : t.sender = s.sender)
    (timer : t.cb.tRexmt = s.cb.tRexmt) (sent : t.sent = s.sent) : t.InOrder where
  numbered := by
    rw [sender, timer]
    exact o.numbered
  shut closed := by
    have layer : t.sk.nextLayer = s.sk.nextLayer := congrArg Sender.nextLayer sender
    have state : t.cb.state = s.cb.state := congrArg Sender.state sender
    rw [state]
    exact o.shut (layer.symm.trans closed)
  logged := by
    rw [sent]
    exact o.logged

/-- Only what a `Conn` holds says where the numbers are. -/
theorem laid_of_conn {x : Endpoint} (same : x.toConn = s.toConn) (laid : s.sender.Laid) :
    x.sender.Laid := by
  have equal : x.sender = { s.sender with connected := x.connected } := by
    simp [sender, same]
  rw [equal]
  exact { laid with }

/-- Choosing a packet sends nothing. -/
theorem Selects.ready_log (selects : s.Selects pkt u) : (u.ready pkt).sent = s.sent := by
  obtain ⟨tPersist, rxtshift, result⟩ := u.ready_eq pkt
  rw [result]
  cases selects <;> rfl

theorem Output.sent_placed (block : Output s t)
    (here : s.cb.state ≠ .closed → ¬ s.cb.state.inHandshake → s.sender.Laid) (logged : ∀ d ∈ s.sent, d.Placed) :
    ∀ d ∈ t.sent, d.Placed := by
  cases block with
  | idle =>
      have same : s.outputIdle.sent = s.sent := by
        unfold outputIdle UdtCb.slowStart
        split
        · split <;> rfl
        · rfl
      rwa [same]
  | consume =>
      obtain ⟨ops, rest, b, queue, appended, result⟩ := s.consumePendingData_spec
      rwa [result]
  | @send u canSend raw pkt env d alive select must before dgram =>
      obtain ⟨_, _, _, _, _, _, _, result⟩ := transmit_eq { u.ready pkt with env } pkt raw d
      have earlier := (outputSelect_selects select).ready_log
      rw [result]
      dsimp only
      rw [earlier]
      refine List.forall_mem_append.mpr ⟨logged, List.forall_mem_singleton.mpr ?_⟩
      intro x same past
      rw [before] at same
      have state : x.cb.state = s.cb.state := congrArg (fun c : Conn => c.cb.state) same
      rw [state] at past
      exact laid_of_conn same (here alive past)
  | @persist u canSend pkt select =>
      have earlier := (outputSelect_selects select).ready_log
      obtain ⟨tPersist, _, result⟩ := enterPersist_eq { u.ready pkt with cb.rxtshift := 0 }
      rw [result]
      dsimp only
      rwa [earlier]
  | @wait u canSend pkt select =>
      have earlier := (outputSelect_selects select).ready_log
      rwa [earlier]
  | record => exact logged

theorem Output.inOrder (block : Output s t) (o : s.InOrder) : t.InOrder := by
  have steady := block.steady
  have layer : t.sk.nextLayer = s.sk.nextLayer := congrArg Steady.nextLayer steady
  have connected : t.connected = s.connected := congrArg Steady.connected steady
  have state : t.cb.state = s.cb.state := congrArg Steady.state steady
  refine ⟨o.numbered.keep layer connected (fun o => (block.open_ o).1) block.opening,
    fun shut => state.trans (o.shut (layer.symm.trans shut)), ?_⟩
  refine block.sent_placed (fun here past => ?_) o.logged
  have alive : s.sk.nextLayer = true := by
    by_contra shut
    exact here (o.shut (Bool.eq_false_iff.mpr shut))
  have numbered := o.numbered alive
  by_cases yes : s.connected = true
  · exact (numbered.1 yes).laid
  · rcases (numbered.2 (Bool.eq_false_iff.mpr yes)).fresh.state with closed | handshake
    · exact absurd closed here
    · exact absurd handshake past

theorem inner_inOrder (block : Block s .inner t) (o : s.InOrder) : t.InOrder := by
  cases block with
  | output block => exact block.inOrder o
  | read =>
      obtain ⟨done, rest, rb, waits, _, _, result⟩ := s.recvDataLoop_spec s.sk.recvOps
      rw [result]
      exact o.same rfl rfl rfl
  | @delayed n =>
      obtain ⟨done, rest, rb, _, result⟩ :=
        ({ s with sk.delayWaits := n } : Endpoint).delayedLoop_spec s.sk.recvOps
      rw [result]
      exact o.same rfl rfl rfl

theorem path_inner_inOrder (path : BlockPath Tag.Inner s t) (o : s.InOrder) : t.InOrder := by
  refine path.invariant o ?_
  intro x a y o inner block
  obtain rfl : a = .inner := inner
  exact inner_inOrder block o

theorem output_inOrder (o : s.InOrder) : s.output.InOrder := path_inner_inOrder s.output_inner o

/-- What was queued and not appended is forgotten. -/
theorem cancel_inOrder (o : s.InOrder) : s.cancel.InOrder where
  numbered := o.numbered.keep rfl rfl (fun o => ⟨o.laid.cancel, o.order⟩) fun o =>
    ⟨{ o.fresh with ops := rfl, pending := rfl }, o.quiet, o.spoken⟩
  shut := o.shut
  logged := o.logged

theorem onDisconnected_inOrder (o : s.InOrder) : s.onDisconnected.InOrder := by
  refine s.onDisconnected_blocks.invariant o ?_
  rintro x a y o (rfl | rfl | rfl) block
  · exact inner_inOrder block o
  · cases block with
    | notifySends =>
        rw [notifySends_eq]
        exact o.same rfl rfl rfl
    | notifyHandlers =>
        rw [postHandlers_eq]
        exact o.same rfl rfl rfl
    | notified => exact o.same rfl rfl rfl
  · cases block with
    | cancel => exact cancel_inOrder o

/-- The connection is given up. -/
theorem closed_inOrder (o : s.InOrder) : InOrder { s with cb.state := .closed } where
  numbered := o.numbered.keep rfl rfl Open.closed Opening.closed
  shut := fun _ => rfl
  logged := o.logged

theorem drop_inOrder (o : s.InOrder) (e : UdtError) : (s.drop e).InOrder := by
  unfold drop
  dsimp only
  have failed : (if e ≠ .succeed then { s with cb.lastError := e } else s : Endpoint).InOrder := by
    split
    · exact o.same rfl rfl rfl
    · exact o
  exact closed_inOrder (onDisconnected_inOrder failed)

section Packet

variable {p : UdtPacket}

theorem resetRexmtTimer_inOrder (o : s.InOrder) :
    InOrder { s with cb := s.cb.resetRexmtTimer } := by
  by_cases all : s.cb.sndUna = s.cb.sndMax
  · have timer : s.cb.resetRexmtTimer = { s.cb with tRexmt := 0, flags.needOutput := true } := if_pos all
    rw [timer]
    exact ⟨o.numbered.keep rfl rfl id fun o => o.timer fun on => absurd rfl on, o.shut, o.logged⟩
  · obtain ⟨tRexmt, need, timer⟩ := resetRexmtTimer_eq s.cb
    rw [timer]
    exact ⟨o.numbered.keep rfl rfl id fun o => o.timer fun _ => all, o.shut, o.logged⟩

theorem handleSyn_inOrder (o : s.InOrder) (alive : s.sk.nextLayer = true) (p : UdtPacket) :
    (s.handleSyn p).2.2.InOrder := by
  obtain ⟨wl1, wl2, tKeep, result⟩ := s.handleSyn_eq p
  rw [result]
  by_cases handshake : s.cb.state.inHandshake
  · have shut : s.connected = false := by
      rw [Bool.eq_false_iff]
      intro yes
      exact ((o.numbered alive).1 yes).laid.open_ handshake
    have opened := ((o.numbered alive).2 shut).greeted handshake
    rw [if_pos (show s.cb.state = .listen ∨ s.cb.state = .synSent ∨ s.cb.state = .synReceived from
      handshake)]
    refine ⟨fun _ => ⟨fun yes => absurd (shut.symm.trans yes) Bool.false_ne_true, fun _ => ?_⟩,
      fun closed => absurd (closed.symm.trans alive) Bool.false_ne_true, o.logged⟩
    by_cases listen : s.cb.state = .listen
    · rw [if_pos (show s.sender.state = .listen from listen)] at opened
      simp only [listen, if_true]
      exact opened
    · rw [if_neg (show ¬ s.sender.state = .listen from listen)] at opened
      simp only [listen, if_false]
      exact opened
  · rw [if_neg (show ¬ (s.cb.state = .listen ∨ s.cb.state = .synSent ∨ s.cb.state = .synReceived) from
      handshake)]
    exact o.same rfl rfl rfl

theorem updateAckState_sender (s : Endpoint) : ∃ t, s.updateAckState.sender =
    { s.sender with
      state := s.cb.state.acked s.cb.flags.sentfin
      connected := s.connected || s.cb.state == .synReceived
      tPersist := t
      buf := if s.sk.nextLayer ∧ s.cb.state = .synReceived
        then s.sk.sndBuf.setInitSeq s.cb.sndNxt else s.sk.sndBuf } ∧
    s.updateAckState.sent = s.sent := by
  obtain ⟨_, _, _, _, _, _, tPersist, _, _, _, _, _, _, _, result⟩ := s.updateAckState_eq
  rw [result]
  exact ⟨tPersist, rfl, rfl⟩

/-- Before the connection opens an acknowledgement of everything only counts the SYN as received. -/
theorem updateAckState_opening (fresh : s.sender.Fresh) (notYet : s.cb.state ≠ .synReceived) :
    s.updateAckState.cb.tRexmt = s.cb.tRexmt ∧ s.updateAckState.cb.tPersist = s.cb.tPersist := by
  have unsent : s.cb.flags.sentfin = false := fresh.sentfin
  have state : s.cb.state = .closed ∨ s.cb.state.inHandshake := fresh.state
  rw [updateAckState, ackHandshake]
  rcases state with state | state | state | state
  · simp [ackFin, state, unsent]
  · simp [ackFin, state, unsent]
  · simp [ackFin, state, unsent]
  · exact absurd state notYet

/-- Everything sent is acknowledged; in SYN_RECEIVED that opens the connection. -/
theorem updateAckState_inOrder (o : s.InOrder) (alive : s.sk.nextLayer = true) :
    s.updateAckState.InOrder := by
  have numbered := o.numbered alive
  obtain ⟨t, sender, sent⟩ := s.updateAckState_sender
  have timer := fun fresh notYet => s.updateAckState_opening fresh notYet
  generalize s.updateAckState = v at sender sent timer ⊢
  have layer : v.sk.nextLayer = true := (congrArg Sender.nextLayer sender).trans alive
  refine ⟨fun _ => ?_, fun shut => absurd (layer.symm.trans shut) (by simp), by rw [sent]; exact o.logged⟩
  rw [sender]
  by_cases received : s.cb.state = .synReceived
  · have no : s.sender.connected = false := by
      rw [Bool.eq_false_iff]
      exact fun yes => (numbered.1 yes).laid.open_ (.inr (.inr received))
    have opening := numbered.2 no
    have last := (opening.spoken (.inr received)).1
    rw [if_pos ⟨alive, received⟩, received]
    rw [show s.connected = false from no]
    refine ⟨fun _ => ⟨opening.fresh.opened last, ?_⟩, fun no => by contradiction⟩
    exact Nat.le_of_eq (congrArg s.sender.off last)
  · rw [if_neg fun new => received new.2]
    have still : (s.connected || s.cb.state == .synReceived) = s.connected := by simp [received]
    rw [still]
    refine ⟨fun yes => (numbered.1 yes).acked t, fun no => ?_⟩
    obtain ⟨fresh, quiet, spoken⟩ := numbered.2 no
    obtain ⟨timer, persist⟩ := timer fresh received
    have same : t = s.cb.tPersist := (congrArg Sender.tPersist sender).symm.trans persist
    have unsent : s.cb.flags.sentfin = false := fresh.sentfin
    have state : s.cb.state = .closed ∨ s.cb.state.inHandshake := fresh.state
    rw [timer, same, unsent]
    rcases state with state | state | state | state
    · rw [state]
      exact ⟨{ fresh with state := .inl rfl }, by simp [TcpState.acked], by simp [TcpState.acked]⟩
    · rw [state]
      exact ⟨{ fresh with state := .inr (.inl rfl) }, fun _ => quiet state, by simp [TcpState.acked]⟩
    · rw [state]
      exact ⟨{ fresh with state := .inr (.inr (.inr rfl)) }, by simp [TcpState.acked],
        fun _ => spoken (.inl state)⟩
    · exact absurd state received

theorem OptionStep.inOrder {x y : Endpoint} (step : OptionStep p x y) (o : x.InOrder) : y.InOrder := by
  cases step with
  | fack named =>
      unfold UdtCb.updateSndFack
      split
      · exact o.same rfl rfl rfl
      · exact o
  | @sacked block front back q named queue start stop =>
      rw [dropSndPkt_eq]
      refine ⟨o.numbered.keep rfl rfl (fun o => ⟨o.laid.drop queue, o.order⟩) fun o => ?_,
        o.shut, o.logged⟩
      have empty : x.sk.sndBuf.pkts = [] := o.fresh.pkts
      simp [empty] at queue
  | cwnd => exact o.same rfl rfl rfl
  | rewrite => exact o.same rfl rfl rfl

theorem OptionSteps.inOrder {x y : Endpoint} (steps : OptionSteps p x y) (o : x.InOrder) :
    y.InOrder := by
  induction steps with
  | refl => exact o
  | tail _ step ih => exact OptionStep.inOrder step ih

theorem acked_inOrder (o : s.InOrder) (alive : s.sk.nextLayer = true) (p : UdtPacket) :
    (s.acked p).InOrder := by
  unfold acked
  dsimp only
  have first : (if s.cb.sndMax = p.hdr.ack then s.updateAckState else s).InOrder := by
    split
    · exact updateAckState_inOrder o alive
    · exact o
  generalize (if s.cb.sndMax = p.hdr.ack then s.updateAckState else s) = x at first ⊢
  split
  · exact OptionSteps.inOrder (x.handleOptions_steps p) first
  · exact first

/-- Acknowledged packets leave, and the numbers start at the acknowledgement. -/
theorem dropAckedData_inOrder {ack : Word} (o : s.InOrder) (above : seqGt ack s.cb.sndUna)
    (sent : seqLe ack s.cb.sndMax)
    (closing : s.cb.flags.sentfin = true → s.cb.state.isClosing → ack ≠ s.cb.sndMax) :
    (s.dropAckedData ack).InOrder := by
  obtain ⟨gone, rest, split, _, kept, result⟩ := s.dropAckedData_spec ack
  obtain ⟨fack, una⟩ := updateSndUna_eq
    { s.cb with retransData := gone.foldl retransLeft s.cb.retransData } ack
  rw [una] at result
  rw [result]
  refine ⟨o.numbered.keep rfl rfl (fun o => o.ack above sent split kept closing) fun o => ?_,
    o.shut, o.logged⟩
  have empty : s.sk.sndBuf.pkts = [] := o.fresh.pkts
  rw [empty] at split
  obtain ⟨rfl, rfl⟩ := List.append_eq_nil_iff.mp split.symm
  have none : s.cb.retransData = 0 := o.fresh.retrans
  have cc : s.sk.sndBuf.cc = 0 := o.fresh.cc
  have left := o.ack (b := s.sk.sndBuf.dropFront [] []) above sent rfl (by simp [UdtBuf.dropFront, cc])
  rw [List.foldl_nil, none]
  exact left

theorem ackNewData_inOrder {ti : UdtHdr} (o : s.InOrder) (above : seqGt ti.ack s.cb.sndUna)
    (sent : seqLe ti.ack s.cb.sndMax)
    (closing : s.cb.flags.sentfin = true → s.cb.state.isClosing → ti.ack ≠ s.cb.sndMax) :
    (s.ackNewData ti).InOrder := by
  unfold ackNewData UdtCb.incrSndCwnd
  dsimp only
  generalize (if s.cb.sndCwnd + _ < TCP_MAXCWIN then _ else TCP_MAXCWIN : Word) = cwnd
  have dropped : (dropAckedData { s with
      cb := { s.cb with flags.notifyWrite := true, sndCwnd := cwnd, dupacks := 0 } } ti.ack).InOrder :=
    dropAckedData_inOrder (o.same rfl rfl rfl) above sent closing
  generalize dropAckedData { s with
    cb := { s.cb with flags.notifyWrite := true, sndCwnd := cwnd, dupacks := 0 } } ti.ack = x
    at dropped ⊢
  obtain ⟨most, window⟩ := updateSndWnd_eq x.cb (ti.win.setWidth 32)
  rw [window]
  exact resetRexmtTimer_inOrder (s := { x with cb := { x.cb with
    sndWnd := ti.win.setWidth 32, maxSndwnd := most, flags.needOutput := true } })
    (dropped.same rfl rfl rfl)

theorem validateFirstPkt_open (o : s.sender.Open) :
    s.validateFirstPkt.sender.Open ∧ s.sender.Rises s.validateFirstPkt.sender := by
  unfold validateFirstPkt
  cases queue : s.sk.sndBuf.pkts with
  | nil => exact ⟨o, .refl _⟩
  | cons p rest =>
      have unmarked := o.laid.unmark queue
      unfold retransLeft at unmarked
      dsimp only
      split at unmarked
      · next up =>
          rw [if_pos up]
          exact ⟨⟨unmarked, o.order⟩, rfl, Nat.le_refl _⟩
      · next up =>
          rw [if_neg up]
          exact ⟨⟨unmarked, o.order⟩, rfl, Nat.le_refl _⟩

theorem validateFirstPkt_empty (empty : s.sk.sndBuf.pkts = []) : s.validateFirstPkt = s := by
  rw [validateFirstPkt, empty]

theorem output_fresh (fresh : s.sender.Fresh) : s.output.sender.Fresh ∧
    s.output.cb.state = s.cb.state ∧
      (s.cb.state = .synSent ∨ s.cb.state = .synReceived → Synced s s.output) := by
  refine s.output_blocks.keeps (I := fun t => t.sender.Fresh ∧ t.cb.state = s.cb.state ∧
    (s.cb.state = .synSent ∨ s.cb.state = .synReceived → Synced s t))
    ⟨fresh, rfl, fun _ => .inl ⟨rfl, rfl⟩⟩ ?_
  rintro x y ⟨fresh, state, synced⟩ block
  obtain ⟨after, moved⟩ := block.fresh fresh
  rw [state] at moved
  exact ⟨after, (congrArg Steady.state block.steady).trans state,
    fun handshake => (synced handshake).trans (moved handshake)⟩

theorem handlePacketLost_same (s : Endpoint) : s.handlePacketLost.sender = s.sender ∧
    s.handlePacketLost.cb.tRexmt = s.cb.tRexmt ∧ s.handlePacketLost.sent = s.sent := by
  obtain ⟨_, _, _, _, _, result⟩ := s.handlePacketLost_eq
  rw [result]
  exact ⟨rfl, rfl, rfl⟩

/-- What `output` sends from a state whose numbers are in order, found them in order. -/
theorem output_logged (o : s.InOrder) (alive : s.sk.nextLayer = true)
    (begun : t.cb.state = s.cb.state) (sent : t.sent = s.sent)
    (open_ : s.connected = true → t.sender.Laid) :
    ∀ d ∈ t.output.sent, d.Placed := by
  refine (t.output_blocks.keeps (I := fun x => x.cb.state = s.cb.state ∧
    (s.connected = true → x.sender.Laid) ∧ ∀ d ∈ x.sent, d.Placed)
    ⟨begun, open_, by rw [sent]; exact o.logged⟩ ?_).2.2
  rintro x y ⟨state, laid, logged⟩ block
  refine ⟨(congrArg Steady.state block.steady).trans state, fun yes => (block.laid (laid yes)).1,
    block.sent_placed (fun here past => ?_) logged⟩
  by_cases yes : s.connected = true
  · exact laid yes
  · rw [state] at here past
    rcases ((o.numbered alive).2 (Bool.eq_false_iff.mpr yes)).fresh.state with closed | handshake
    · exact absurd closed here
    · exact absurd handshake past

theorem beginFastRexmt_same (x : Endpoint) (ack : Word) :
    (x.beginFastRexmt ack).cb.state = x.cb.state ∧
      (x.beginFastRexmt ack).sk.nextLayer = x.sk.nextLayer ∧
      (x.beginFastRexmt ack).connected = x.connected ∧ (x.beginFastRexmt ack).sent = x.sent := by
  unfold beginFastRexmt
  dsimp only
  obtain ⟨_, _, _, result, _⟩ := validateFirstPkt_eq { x with
    cb.tRexmt := 0, cb.sndNxt := ack
    cb.sndCwnd := UdtCb.bytesInflight { x.cb with tRexmt := 0, sndNxt := ack } +
      x.cb.maxseg.setWidth 32 }
  rw [result]
  exact ⟨rfl, rfl, rfl, rfl⟩

/-- A fast retransmission sends from `m_snd_una`. -/
theorem beginFastRexmt_open {ack : Word} (o : s.sender.Open) (same : ack = s.cb.sndUna) :
    (s.beginFastRexmt ack).sender.Open ∧ s.sender.Rises (s.beginFastRexmt ack).sender := by
  have first : ∀ n, s.sender.off s.cb.sndUna ≤ n := fun n =>
    (Sender.off_una s.sender).trans_le (Nat.zero_le n)
  have back : Open { s.sender with nxt := ack } := by
    rw [same]
    exact ⟨o.laid.rewind (first _), first _⟩
  obtain ⟨open_, rises⟩ := validateFirstPkt_open (s := { s with
    cb.tRexmt := 0, cb.sndNxt := ack
    cb.sndCwnd := UdtCb.bytesInflight { s.cb with tRexmt := 0, sndNxt := ack } +
      s.cb.maxseg.setWidth 32 }) back
  exact ⟨open_, rises.una, rises.max⟩

theorem fastRexmt_opening {ack : Word} (o : s.sender.Opening s.cb.tRexmt) (same : ack = s.cb.sndUna)
    (running : s.cb.tRexmt ≠ 0) (timer : Half) :
    Opening { (s.beginFastRexmt ack).output.sender with nxt := s.cb.sndNxt } timer := by
  have state := (s.beginFastRexmt_same ack).1
  have empty : s.sk.sndBuf.pkts = [] := o.fresh.pkts
  have numbers : (s.beginFastRexmt ack).sender = { s.sender with nxt := ack } := by
    unfold beginFastRexmt
    dsimp only
    rw [validateFirstPkt_empty]
    · rfl
    · exact empty
  have begun : (s.beginFastRexmt ack).sender.Fresh := by
    rw [numbers, same]
    exact { o.fresh with nxt := o.fresh.una.trans o.fresh.max }
  obtain ⟨fresh, state', synced⟩ := output_fresh begun
  have max : (s.beginFastRexmt ack).cb.sndMax = s.cb.sndMax := congrArg Sender.max numbers
  generalize (s.beginFastRexmt ack).output = x at fresh state' synced ⊢
  rw [state] at state' synced
  refine ⟨{ fresh with nxt := o.fresh.nxt }, fun listen => ?_, fun handshake => ?_⟩
  · exact absurd (o.quiet (state'.symm.trans listen)).1 running
  · have handshake : s.cb.state = .synSent ∨ s.cb.state = .synReceived := by
      rw [← state']
      exact handshake
    obtain ⟨last, timed⟩ := o.spoken handshake
    have one : s.cb.sndMax = 1 := timed running
    have still : x.cb.sndMax = 1 := by
      rcases synced handshake with ⟨_, kept⟩ | ⟨_, sent⟩
      · exact kept.trans (max.trans one)
      · exact sent
    exact ⟨last.trans (one.trans still.symm), fun _ => still⟩

theorem doFastRexmt_inOrder {ack : Word} (o : s.InOrder) (alive : s.sk.nextLayer = true)
    (same : ack = s.cb.sndUna) (running : s.cb.tRexmt ≠ 0) : (s.doFastRexmt ack).InOrder := by
  obtain ⟨sender, timer, sent⟩ := s.handlePacketLost_same
  have lost : s.handlePacketLost.InOrder := o.same sender timer sent
  have old : s.handlePacketLost.cb.sndNxt = s.cb.sndNxt := congrArg Sender.nxt sender
  have una : s.handlePacketLost.cb.sndUna = s.cb.sndUna := congrArg Sender.una sender
  have alive : s.handlePacketLost.sk.nextLayer = true := (congrArg Sender.nextLayer sender).trans alive
  rw [doFastRexmt]
  dsimp only
  rw [← old]
  rw [← una] at same
  rw [← timer] at running
  generalize s.handlePacketLost = x at lost same running alive ⊢
  obtain ⟨state, layer, connected, log⟩ := x.beginFastRexmt_same ack
  have numbered := lost.numbered alive
  have logged := output_logged lost alive state log
    fun yes => (beginFastRexmt_open (numbered.1 yes) same).1.laid
  have steady := output_steady (x.beginFastRexmt ack)
  have layer' := (congrArg Steady.nextLayer steady).trans layer
  have connected' := (congrArg Steady.connected steady).trans connected
  have open_ : x.connected = true →
      Open { (x.beginFastRexmt ack).output.sender with nxt := x.cb.sndNxt } := by
    intro yes
    have before := numbered.1 yes
    obtain ⟨begun, rises⟩ := beginFastRexmt_open before same
    obtain ⟨after, risen⟩ := output_open begun
    exact (rises.trans risen).restore before after
  have opening := fun no => fastRexmt_opening (numbered.2 no) same running
  generalize (x.beginFastRexmt ack).output = y at logged layer' connected' open_ opening ⊢
  refine ⟨fun _ => ⟨fun yes => open_ (connected'.symm.trans yes),
    fun no => opening (connected'.symm.trans no) _⟩, fun shut => ?_, logged⟩
  have layer' : y.sk.nextLayer = x.sk.nextLayer := layer'
  exact absurd ((layer'.trans alive).symm.trans shut) (by simp)

theorem ackDuplicate_inOrder {ti : UdtHdr} (o : s.InOrder) (alive : s.sk.nextLayer = true)
    (same : ti.ack = s.cb.sndUna) : (s.ackDuplicate ti).2.InOrder := by
  rw [ackDuplicate]
  dsimp only
  split
  · obtain ⟨most, window⟩ := updateSndWnd_eq s.cb (ti.win.setWidth 32)
    rw [window]
    exact resetRexmtTimer_inOrder (s := { s with cb := { s.cb with
      sndWnd := ti.win.setWidth 32, maxSndwnd := most, flags.needOutput := true } })
      (o.same rfl rfl rfl)
  split
  · exact resetRexmtTimer_inOrder (s := { s with cb.dupacks := 0 }) (o.same rfl rfl rfl)
  split
  · next running _ =>
      exact doFastRexmt_inOrder (s := { s with cb.dupacks := s.cb.dupacks + 1, cb.rtt := 0 })
        (o.same rfl rfl rfl) alive same running
  split
  · exact o.same rfl rfl rfl
  · exact resetRexmtTimer_inOrder (s := { s with cb.dupacks := s.cb.dupacks + 1 })
      (o.same rfl rfl rfl)

theorem acked_nextLayer (s : Endpoint) (p : UdtPacket) :
    (s.acked p).sk.nextLayer = s.sk.nextLayer := by
  obtain ⟨_, _, _, _, _, _, _, _, _, _, _, _, _, _, _, _, _, _, _, _, result⟩ := s.acked_eq p
  rw [result]

theorem handleAck_inOrder (o : s.InOrder) (alive : s.sk.nextLayer = true) (p : UdtPacket) :
    (s.handleAck p).2.InOrder := by
  have acked := acked_inOrder o alive p
  have layer := (s.acked_nextLayer p).trans alive
  have outcome := s.handleAck_outcome p
  generalize s.handleAck p = result at outcome ⊢
  obtain ⟨_, _, _, _, _, _, _, _, _, _, _, _, _, _, _, _, _, _, _, _, after⟩ := s.acked_eq p
  have una : (s.acked p).cb.sndUna = s.cb.sndUna := by rw [after]
  have max : (s.acked p).cb.sndMax = s.cb.sndMax := by rw [after]
  have fin : (s.acked p).cb.flags.sentfin = s.cb.flags.sentfin := by rw [after]
  have state : (s.acked p).cb.state = if s.cb.sndMax = p.hdr.ack
      then s.cb.state.acked s.cb.flags.sentfin else s.cb.state := by rw [after]
  cases outcome with
  | old => exact o
  | beyond => exact o.same rfl rfl rfl
  | duplicate accepted same => exact ackDuplicate_inOrder acked layer (same.trans una.symm)
  | new accepted above =>
      refine ackNewData_inOrder acked (una.symm ▸ above) (max.symm ▸ not_not.mp accepted.2) ?_
      -- an acknowledged FIN has taken the state past waiting for it
      intro sent closing all
      rw [fin] at sent
      rw [max] at all
      rw [state, if_pos all.symm, sent] at closing
      revert closing
      cases s.cb.state <;> decide

theorem handleFin_inOrder (o : s.InOrder) : s.handleFin.InOrder := by
  have finned : InOrder { s with cb.state := s.cb.state.finned } := by
    refine ⟨o.numbered.keep rfl rfl Open.finned Opening.finned, fun shut => ?_, o.logged⟩
    have state : s.cb.state = .closed := o.shut shut
    change s.cb.state.finned = .closed
    rw [state]
    rfl
  obtain ⟨_, _, result⟩ := s.handleFin_eq
  rw [result]
  split
  · exact finned.same rfl rfl rfl
  · exact finned.same rfl rfl rfl

theorem inputSegment_inOrder (o : s.InOrder) (alive : s.sk.nextLayer = true) (p : UdtPacket) :
    (s.inputSegment p).InOrder := by
  have stored : (s.stored p).InOrder ∧ (s.stored p).sk.nextLayer = true := by
    obtain ⟨_, _, _, _, _, _, result⟩ := s.stored_eq p
    rw [result]
    exact ⟨o.same rfl rfl rfl, alive⟩
  have acked := handleAck_inOrder stored.1 stored.2 p
  rw [inputSegment_eq]
  split
  · split
    · exact handleFin_inOrder acked
    · exact acked
  · split
    · exact handleFin_inOrder stored.1
    · exact stored.1

theorem ackPredicted_inOrder {ack : Word} (o : s.InOrder) (above : seqGt ack s.cb.sndUna)
    (sent : seqLe ack s.cb.sndMax) (state : s.cb.state = .established) :
    (s.ackPredicted ack).InOrder := by
  have dropped : (s.dropAckedData ack).InOrder := by
    refine dropAckedData_inOrder o above sent fun _ closing => ?_
    rw [state] at closing
    exact absurd closing (by decide)
  unfold ackPredicted
  dsimp only
  generalize s.dropAckedData ack = x at dropped ⊢
  exact (resetRexmtTimer_inOrder dropped).same rfl rfl rfl

theorem storePredicted_inOrder (o : s.InOrder) (len : Half) (rb : UdtRcvBuf) :
    (s.storePredicted len rb).InOrder := o.same rfl rfl rfl

theorem InOrder.hangup (o : s.InOrder) (e : UdtError) (reset : Bool) : InOrder { s with
    cb.lastError := e, cb.flags.notifyDrop := true, cb.flags.needReset := reset } :=
  o.same rfl rfl rfl

theorem InOrder.owe (o : s.InOrder) : InOrder { s with cb.flags.acknow := true } := o.same rfl rfl rfl

theorem entered_inOrder (o : s.InOrder) (p : UdtPacket) : (s.entered p).InOrder := by
  obtain ⟨_, _, _, _, _, _, _, result⟩ := s.entered_eq p
  rw [result]
  exact o.same rfl rfl rfl

/-- The SYN of the packet, if it has one, is handled. -/
theorem synced_inOrder (o : s.InOrder) (alive : s.sk.nextLayer = true) (p : UdtPacket) :
    (s.synced p).InOrder ∧ (s.synced p).sk.nextLayer = true := by
  have entered := entered_inOrder o p
  have layer : (s.entered p).sk.nextLayer = true := by
    obtain ⟨_, _, _, _, _, _, _, result⟩ := s.entered_eq p
    rw [result]
    exact alive
  unfold synced
  split
  · refine ⟨handleSyn_inOrder entered layer p, ?_⟩
    obtain ⟨_, _, _, result⟩ := (s.entered p).handleSyn_eq p
    rw [result]
    split <;> exact layer
  · exact ⟨entered, layer⟩

theorem inputChecked_inOrder (o : s.InOrder) (alive : s.sk.nextLayer = true) (p : UdtPacket) :
    (s.inputChecked p).InOrder := by
  have timed : (s.timed p).InOrder := by
    obtain ⟨_, _, _, _, _, _, result⟩ := s.timed_eq p
    rw [result]
    exact o.same rfl rfl rfl
  have entered := entered_inOrder o p
  have synced := synced_inOrder o alive p
  have same : (s.entered p).cb.state = s.cb.state ∧ (s.entered p).cb.sndUna = s.cb.sndUna ∧
      (s.entered p).cb.sndMax = s.cb.sndMax := by
    obtain ⟨_, _, _, _, _, _, _, result⟩ := s.entered_eq p
    rw [result]
    exact ⟨rfl, rfl, rfl⟩
  obtain ⟨state', una', max'⟩ := same
  have outcome := s.inputChecked_outcome p
  generalize s.inputChecked p = x at outcome ⊢
  cases outcome with
  | ignored => exact timed
  | hangup => exact timed.hangup _ _
  | outside => exact entered.owe
  | ackPredicted admitted state isAck bare above sent taken =>
      have acked := ackPredicted_inOrder entered (una'.symm ▸ above) (max'.symm ▸ sent)
        (state'.trans state)
      unfold outputData
      split
      · exact output_inOrder acked
      · exact acked
  | storePredicted => exact storePredicted_inOrder entered _ _
  | synRefused => exact synced.1
  | segment => exact inputSegment_inOrder synced.1 synced.2 _

theorem commitOutput_inOrder (o : s.InOrder) : s.commitOutput.InOrder :=
  path_inner_inOrder s.commitOutput_blocks o

theorem commitReset_inOrder (o : s.InOrder) : s.commitReset.InOrder := by
  unfold commitReset
  split
  · exact o.same rfl rfl rfl
  · exact o

theorem commitRead_inOrder (o : s.InOrder) : s.commitRead.InOrder := by
  unfold commitRead
  split
  · exact (path_inner_inOrder s.notifyReadable_blocks o).same rfl rfl rfl
  · exact o

theorem commitWrite_inOrder (o : s.InOrder) : s.commitWrite.InOrder := by
  unfold commitWrite
  split
  · exact (path_inner_inOrder s.onWritable_blocks o).same rfl rfl rfl
  · exact o

theorem commitDrop_inOrder (o : s.InOrder) : s.commitDrop.InOrder := by
  unfold commitDrop
  split
  · exact (drop_inOrder o s.cb.lastError).same rfl rfl rfl
  · exact o

theorem commitNotifies_inOrder (o : s.InOrder) : s.commitNotifies.InOrder :=
  commitDrop_inOrder (commitWrite_inOrder (commitRead_inOrder (commitReset_inOrder
    (commitOutput_inOrder o))))

theorem doReceive_inOrder (o : s.InOrder) : s.doReceive.InOrder := by
  obtain ⟨_, _, _, result⟩ := s.doReceive_eq
  rw [result]
  exact o.same rfl rfl rfl

theorem received_inOrder (o : s.InOrder) : s.received.InOrder := by
  unfold Endpoint.received pktConsumed
  cases s.cb.flags.packetConsumed
  · exact doReceive_inOrder o
  · exact doReceive_inOrder (s := { s with cb.flags.packetConsumed := false, sk.rcvPkt := none })
      (o.same rfl rfl rfl)

theorem handleReceive_inOrder (o : s.InOrder) (hdr : UdtHdr) (mem : List UChar) (n : Nat) :
    (s.handleReceive hdr mem n).InOrder := by
  rcases s.handleReceive_cases hdr mem n with (same | same) |
    ⟨buffer, alive, waits, good, result⟩
  · rw [same]
    exact o
  · rw [same]
    exact doReceive_inOrder o
  · rw [result]
    exact received_inOrder (commitNotifies_inOrder (inputChecked_inOrder o alive _))

end Packet

section Timers

theorem rexmtBegun_open (o : s.sender.Open) : s.rexmtBegun.sender.Open := by
  obtain ⟨_, _, _, _, _, _, _, _, _, _, result⟩ := s.rexmtBegun_eq
  rw [result]
  exact ⟨o.laid.clear, (Sender.off_una s.sender).trans_le (Nat.zero_le _)⟩

theorem rexmtBegun_fresh (o : s.sender.Fresh) : s.rexmtBegun.sender.Fresh := by
  obtain ⟨_, _, _, _, _, _, _, _, _, _, result⟩ := s.rexmtBegun_eq
  have empty : s.sk.sndBuf.pkts = [] := o.pkts
  rw [result]
  exact { o with
    nxt := o.una.trans o.max, retrans := rfl, pkts := by
      change clearFlagsLoop s.cb.sndMax s.sk.sndBuf.pkts = []
      rw [empty, clearFlagsLoop] }

theorem rexmtBegun_same (s : Endpoint) : s.rexmtBegun.cb.state = s.cb.state ∧
    s.rexmtBegun.sk.nextLayer = s.sk.nextLayer ∧ s.rexmtBegun.connected = s.connected ∧
      s.rexmtBegun.sent = s.sent := by
  obtain ⟨_, _, _, _, _, _, _, _, _, _, result⟩ := s.rexmtBegun_eq
  rw [result]
  exact ⟨rfl, rfl, rfl, rfl⟩

/-- In the handshake a pass sends the SYN. -/
theorem outputPass_handshake (fresh : s.sender.Fresh)
    (handshake : s.cb.state = .synSent ∨ s.cb.state = .synReceived) :
    s.outputPass.2.1 = false ∧ s.outputPass.2.2.cb.sndNxt = 1 ∧ s.outputPass.2.2.cb.sndMax = 1 := by
  have consumed : (s.outputConsume s.canSendBytes).sender.Fresh ∧
      (s.outputConsume s.canSendBytes).cb.state = s.cb.state := by
    unfold outputConsume
    split
    · exact ⟨(Output.consume.fresh fresh).1, congrArg Steady.state Output.consume.steady⟩
    · exact ⟨fresh, rfl⟩
  rw [outputPass]
  dsimp only
  generalize s.canSendBytes = canSend at consumed ⊢
  generalize s.outputConsume canSend = w at consumed ⊢
  obtain ⟨fresh, state⟩ := consumed
  cases select : w.outputSelect (w.outputForce canSend) with
  | mk pkt u =>
      have selects := outputSelect_selects select
      obtain ⟨rfl, fresh⟩ := selects_fresh selects fresh
      have state : u.cb.state = s.cb.state := (congrArg Steady.state selects.steady).trans state
      rw [← state] at handshake
      have must : u.mustSend (u.outputFlags (Conn.pktLen none)) = true := mustSend_of_syn handshake
      have sent := (transmit_fresh fresh u.sk.rcvBuf.acc
        ⟨w.toConn, w.env.staleRcvWin 0, (u.outputSend (u.outputFlags (Conn.pktLen none)) none
          u.sk.rcvBuf.acc).1⟩).2 handshake
      have ready : (if ((none : Option UdtPacket).isSome && !u.cb.force) = true
        then { u with cb := u.cb.leavePersist } else u) = u := rfl
      dsimp only
      rw [ready, if_neg (show ¬ Conn.pktLen none ≠ 0 by simp [Conn.pktLen]), if_pos must]
      exact ⟨rfl, sent⟩

/-- In the handshake a retransmission sends the SYN. -/
theorem output_handshake (fresh : s.sender.Fresh)
    (handshake : s.cb.state = .synSent ∨ s.cb.state = .synReceived) :
    s.output.cb.sndNxt = 1 ∧ s.output.cb.sndMax = 1 := by
  have alive : s.cb.state ≠ .closed := by
    rcases handshake with state | state <;> rw [state] <;> decide
  have idle : s.outputIdle.sender.Fresh ∧ s.outputIdle.cb.state = s.cb.state :=
    ⟨(Output.idle.fresh fresh).1, congrArg Steady.state Output.idle.steady⟩
  rw [← idle.2] at handshake
  obtain ⟨last, nxt, max⟩ := outputPass_handshake idle.1 handshake
  rw [output, if_neg alive, sendPacketsClamp, outputLoop]
  generalize s.outputIdle.outputPass = pass at last nxt max ⊢
  obtain ⟨d, again, x⟩ := pass
  cases last
  exact ⟨nxt, max⟩

theorem rexmtBegun_output_inOrder (o : s.InOrder) (running : s.cb.tRexmt ≠ 0) :
    s.rexmtBegun.output.InOrder := by
  obtain ⟨state, layer, connected, log⟩ := s.rexmtBegun_same
  have open_ := rexmtBegun_open (s := s)
  have fresh := rexmtBegun_fresh (s := s)
  generalize s.rexmtBegun = b at state layer connected log open_ fresh ⊢
  have logged : ∀ d ∈ b.output.sent, d.Placed := by
    by_cases alive : s.sk.nextLayer = true
    · exact output_logged o alive state log fun yes => (open_ ((o.numbered alive).1 yes)).laid
    · have closed := o.shut (Bool.eq_false_iff.mpr alive)
      rw [output, if_pos (state.trans closed), log]
      exact o.logged
  have opened := fun o => (output_open (open_ o)).1
  have shut := fun f => (output_fresh (fresh f)).1
  have spoken := fun f => output_handshake (fresh f)
  rw [state] at spoken
  have steady := output_steady b
  generalize b.output = x at logged opened shut spoken steady ⊢
  have layer' : x.sk.nextLayer = s.sk.nextLayer := (congrArg Steady.nextLayer steady).trans layer
  have connected' : x.connected = s.connected := (congrArg Steady.connected steady).trans connected
  have state' : x.cb.state = s.cb.state := (congrArg Steady.state steady).trans state
  refine ⟨o.numbered.keep layer' connected' opened fun o => ⟨shut o.fresh, fun listen => ?_,
    fun handshake => ?_⟩, fun down => state'.trans (o.shut (layer'.symm.trans down)), logged⟩
  · exact absurd (o.quiet (state'.symm.trans listen)).1 running
  · have handshake : s.cb.state = .synSent ∨ s.cb.state = .synReceived := by
      rw [← state']
      exact handshake
    obtain ⟨nxt, max⟩ := spoken o.fresh handshake
    exact ⟨nxt.trans max.symm, fun _ => max⟩

theorem slowRexmt_inOrder (o : s.InOrder) : s.slowRexmt.InOrder := by
  unfold slowRexmt
  split
  · exact o
  next running =>
  dsimp only
  have ticked : InOrder { s with cb.tRexmt := s.cb.tRexmt - 1 } := by
    refine ⟨o.numbered.keep rfl rfl id fun o => ?_, o.shut, o.logged⟩
    refine ⟨o.fresh, fun listen => absurd (o.quiet listen).1 running, fun handshake => ?_⟩
    exact ⟨(o.spoken handshake).1, fun _ => (o.spoken handshake).2 running⟩
  split
  · unfold rexmtExpired
    dsimp only
    split
    · refine drop_inOrder ?_ _
      exact ticked.same rfl rfl rfl
    · exact rexmtBegun_output_inOrder o running
  · exact ticked

/-- The persist timer runs on an open connection only. -/
theorem InOrder.persisting (o : s.InOrder) (running : s.cb.tPersist ≠ 0) {x : Endpoint}
    (layer : x.sk.nextLayer = s.sk.nextLayer) (connected : x.connected = s.connected)
    (state : x.cb.state = s.cb.state) (sent : x.sent = s.sent)
    (open_ : s.sender.Open → x.sender.Open) : x.InOrder := by
  refine ⟨o.numbered.keep layer connected open_ fun opening => ?_,
    fun shut => state.trans (o.shut (layer.symm.trans shut)), by rw [sent]; exact o.logged⟩
  exact absurd opening.fresh.tPersist running

theorem persistBegun_inOrder (o : s.InOrder) (running : s.cb.tPersist ≠ 0) :
    s.persistBegun.InOrder := by
  obtain ⟨_, _, _, _, _, result, _⟩ := s.persistBegun_eq
  refine o.persisting running ?_ ?_ ?_ ?_ fun o => ?_
  · rw [result]
  · rw [result]
  · rw [result]
  · rw [result]
  · obtain ⟨tPersist, _, entered⟩ := enterPersist_eq { s with cb.tPersist := s.cb.tPersist - 1 }
    unfold persistBegun
    dsimp only
    rw [entered]
    refine (validateFirstPkt_open ?_).1
    exact ⟨o.laid.persist tPersist, o.order⟩

/-- A forced probe goes out. -/
theorem slowPersist_inOrder (o : s.InOrder) : s.slowPersist.InOrder := by
  unfold slowPersist
  split
  · exact o
  next running =>
  dsimp only
  split
  · change InOrder { s.persistBegun.output with cb.force := false }
    exact (output_inOrder (persistBegun_inOrder o running)).same rfl rfl rfl
  · exact o.persisting running rfl rfl rfl rfl fun o => ⟨o.laid.persist _, o.order⟩

theorem slowKeep_inOrder (o : s.InOrder) : s.slowKeep.InOrder := by
  unfold slowKeep
  split
  · exact o
  have ticked : InOrder { s with cb.tKeep := s.cb.tKeep - 1 } := o.same rfl rfl rfl
  dsimp only
  split
  · unfold keepExpired
    split
    · exact drop_inOrder ticked _
    split
    · split
      · exact drop_inOrder ticked _
      · exact o.same rfl rfl rfl
    · exact o.same rfl rfl rfl
  · exact ticked

theorem slow2msl_inOrder (o : s.InOrder) : s.slow2msl.InOrder := by
  unfold slow2msl
  split
  · exact o
  have ticked : InOrder { s with cb.t2msl := s.cb.t2msl - 1 } := o.same rfl rfl rfl
  dsimp only
  split
  · exact drop_inOrder ticked _
  · exact ticked

theorem handleSlowTimo_inOrder (o : s.InOrder) : s.handleSlowTimo.InOrder := by
  have timers := slow2msl_inOrder (slowKeep_inOrder (slowPersist_inOrder (slowRexmt_inOrder o)))
  unfold handleSlowTimo
  generalize s.slowRexmt.slowPersist.slowKeep.slow2msl = x at timers ⊢
  exact timers.same rfl rfl rfl

end Timers

/-- No connection was begun on the socket, or what was begun left no trace in its numbers. -/
structure Unused (s : Endpoint) : Prop where
  connected : s.connected = false
  tRexmt : s.cb.tRexmt = 0
  una : s.cb.sndUna = s.cb.sndMax
  nxt : s.cb.sndNxt = s.cb.sndMax

instance (s : Endpoint) : Decidable s.Unused :=
  decidable_of_iff (s.connected = false ∧ s.cb.tRexmt = 0 ∧ s.cb.sndUna = s.cb.sndMax ∧
    s.cb.sndNxt = s.cb.sndMax)
    ⟨fun ⟨connected, timer, una, nxt⟩ => ⟨connected, timer, una, nxt⟩,
      fun unused => ⟨unused.connected, unused.tRexmt, unused.una, unused.nxt⟩⟩

/-- One connection a socket, data only while it is open and before our FIN, and less than half of
the circle unacknowledged or queued. -/
def Regular (s : Endpoint) : Event → Prop
  | .connect _ | .accept _ => s.cb.state = .closed → s.Unused
  | .send op => s.connected = true ∧ s.cb.flags.sentfin = false ∧
      s.sender.bytes + s.sk.pendingData.toNat + op.buf.size < maxReach
  | _ => True

instance (s : Endpoint) : (e : Event) → Decidable (s.Regular e)
  | .connect _ | .accept _ => inferInstanceAs (Decidable (_ → s.Unused))
  | .send _ => inferInstanceAs (Decidable (_ ∧ _ ∧ _))
  | .packet _ _ _ | .slowTimo | .fastTimo | .receive _ | .shutdown _ | .delayTimer _ | .receiveError _
  | .mtu | .setKeepalive _ | .setSndBuf _ | .setRcvBuf _ | .cancel | .close => .isTrue trivial

section Events

theorem asyncConnect_inOrder (o : s.InOrder) (h : Nat) (regular : s.Regular (.connect h)) :
    (s.asyncConnect h).InOrder := by
  unfold asyncConnect
  split
  case isFalse => exact o
  case isTrue alive =>
    obtain ⟨pkt, next, _, received⟩ := ({ s with sk.connectHandler := some h } : Endpoint).doReceive_eq
    unfold connect
    rw [received]
    dsimp only
    split
    case isTrue => exact o.same rfl rfl rfl
    case isFalse closed =>
      have unused := regular (not_not.mp closed)
      refine output_inOrder ⟨fun _ => ⟨fun yes => ?_, fun no => ?_⟩, fun shut => ?_, o.logged⟩
      · exact absurd (unused.connected.symm.trans yes) (by simp)
      · have fresh := ((o.numbered alive).2 no).fresh
        refine ⟨{ fresh with
          state := .inr (.inr (.inl rfl)), iss := rfl, una := Nat.le_refl _
          max := Nat.zero_le _, nxt := Nat.zero_le _ }, fun listen => ?_, fun _ => ⟨rfl, fun on => ?_⟩⟩
        · contradiction
        · exact absurd unused.tRexmt on
      · exact absurd (alive.symm.trans shut) (by simp)

theorem asyncAccept_inOrder (o : s.InOrder) (h : Nat) (regular : s.Regular (.accept h)) :
    (s.asyncAccept h).InOrder := by
  unfold asyncAccept
  split
  case isFalse => exact o
  case isTrue alive =>
    obtain ⟨pkt, next, _, received⟩ := ({ s with sk.acceptHandler := some h } : Endpoint).doReceive_eq
    unfold accept
    rw [received]
    dsimp only
    split
    case isTrue => exact o.same rfl rfl rfl
    case isFalse closed =>
      have unused := regular (not_not.mp closed)
      refine ⟨fun _ => ⟨fun yes => ?_, fun no => ?_⟩, fun shut => ?_, o.logged⟩
      · exact absurd (unused.connected.symm.trans yes) (by simp)
      · have fresh := ((o.numbered alive).2 no).fresh
        exact ⟨{ fresh with state := .inr (.inl rfl) },
          fun _ => ⟨unused.tRexmt, unused.una, unused.nxt⟩,
          fun handshake => by rcases handshake with state | state <;> contradiction⟩
      · exact absurd (alive.symm.trans shut) (by simp)

theorem queueSend_inOrder (o : s.InOrder) (op : SendOperation) (regular : s.Regular (.send op)) :
    (s.queueSend op).InOrder := by
  obtain ⟨connected, unsent, room⟩ := regular
  refine ⟨fun alive => ⟨fun yes => ?_, fun no => ?_⟩, o.shut, o.logged⟩
  · have o := (o.numbered alive).1 yes
    exact ⟨o.laid.queueOp unsent room, o.order⟩
  · exact absurd (connected.symm.trans no) (by simp)

theorem asyncSend_inOrder (o : s.InOrder) (op : SendOperation) (regular : s.Regular (.send op)) :
    (s.asyncSend op).InOrder := by
  have consumed : (s.queueSend op).consumePendingData.2.InOrder :=
    Output.consume.inOrder (queueSend_inOrder o op regular)
  rw [asyncSend_eq]
  split
  · exact o
  split
  · exact o.same rfl rfl rfl
  split
  · exact output_inOrder consumed
  · exact consumed

theorem closing_inOrder (o : s.InOrder) (h : Nat) : (s.closing h).InOrder := by
  rw [closing_eq]
  refine ⟨o.numbered.keep rfl rfl Open.shutdown Opening.shutdown, fun shut => ?_, o.logged⟩
  have state := o.shut shut
  simp [state]

theorem asyncShutdown_inOrder (o : s.InOrder) (h : Nat) : (s.asyncShutdown h).InOrder := by
  have closing := closing_inOrder o h
  by_cases alive : s.sk.nextLayer = true
  · obtain ⟨m, block, path⟩ := s.shutdown_blocks h alive
    cases block with
    | shutdown => exact path_inner_inOrder path closing
  · rw [asyncShutdown, if_neg alive]
    exact o

theorem setSndBuf_inOrder (o : s.InOrder) (v : Word) : (s.setSndBuf v).InOrder :=
  ⟨o.numbered.keep rfl rfl (fun o => ⟨o.laid.limit v, o.order⟩)
    fun o => ⟨{ o.fresh with }, o.quiet, o.spoken⟩, o.shut, o.logged⟩

theorem close_inOrder (o : s.InOrder) : s.close.InOrder := by
  unfold close
  split
  · have cancelled := cancel_inOrder o
    generalize s.cancel = x at cancelled ⊢
    exact ⟨fun alive => absurd alive (by simp [sender]), fun _ => rfl, cancelled.logged⟩
  · exact o

theorem handleDelayRecvOperation_inOrder (o : s.InOrder) (aborted : Bool) :
    (s.handleDelayRecvOperation aborted).InOrder := by
  unfold handleDelayRecvOperation
  split
  · exact o
  dsimp only
  split
  · exact o.same rfl rfl rfl
  · exact inner_inOrder .delayed o

theorem step_inOrder (o : s.InOrder) (e : Event) (regular : s.Regular e) : (s.step e).InOrder := by
  cases e with
  | connect h => exact asyncConnect_inOrder o h regular
  | accept h => exact asyncAccept_inOrder o h regular
  | packet hdr mem n => exact handleReceive_inOrder o hdr mem n
  | slowTimo =>
      change s.slowTimer.InOrder
      unfold slowTimer
      split
      · exact handleSlowTimo_inOrder o
      · exact o
  | fastTimo =>
      change s.fastTimer.InOrder
      unfold fastTimer handleFastTimo
      split
      · split
        · exact output_inOrder (o.same rfl rfl rfl)
        · exact o
      · exact o
  | send op => exact asyncSend_inOrder o op regular
  | receive op =>
      change (s.asyncReceive op).InOrder
      unfold asyncReceive
      split
      · exact o
      split
      · exact o.same rfl rfl rfl
      · exact path_inner_inOrder (recvData_blocks _) (o.same rfl rfl rfl)
  | shutdown h => exact asyncShutdown_inOrder o h
  | delayTimer aborted => exact handleDelayRecvOperation_inOrder o aborted
  | receiveError value =>
      change (s.handleReceiveError value).InOrder
      rw [handleReceiveError_eq]
      split
      · have released : InOrder { s with sk.rcvPkt := none } := o.same rfl rfl rfl
        exact onDisconnected_inOrder released
      · exact o
  | mtu =>
      change s.handleMtu.InOrder
      unfold handleMtu
      split
      · exact o.same rfl rfl rfl
      · exact o
  | setKeepalive on => exact o.same rfl rfl rfl
  | setSndBuf v => exact setSndBuf_inOrder o v
  | setRcvBuf v => exact o.same rfl rfl rfl
  | cancel => exact cancel_inOrder o
  | close => exact close_inOrder o

theorem init_inOrder (fack sndSeq rcvSeq : Word) (env : Env) :
    (init fack sndSeq rcvSeq env).InOrder := by
  refine ⟨fun _ => ⟨fun yes => absurd yes (by simp [sender, init]), fun _ => ?_⟩, fun _ => rfl,
    by simp [init]⟩
  refine ⟨⟨.inl rfl, rfl, rfl, rfl, Nat.le_refl _, Nat.zero_le _, Nat.zero_le _, rfl, rfl, rfl, rfl,
    rfl⟩, fun listen => by contradiction, fun handshake => ?_⟩
  rcases handshake with state | state <;> contradiction

theorem run_inOrder (fack sndSeq rcvSeq : Word) (env : Env) (es : List Event)
    (regular : Trace.Meets step Regular (init fack sndSeq rcvSeq env) es) :
    ((init fack sndSeq rcvSeq env).run es).InOrder :=
  regular.invariant (init_inOrder fack sndSeq rcvSeq env) fun _ e o regular => step_inOrder o e regular

section Run

variable {fack sndSeq rcvSeq : Word} {env : Env} {es : List Event}

theorem run_open (regular : Trace.Meets step Regular (init fack sndSeq rcvSeq env) es)
    (alive : ((init fack sndSeq rcvSeq env).run es).sk.nextLayer = true)
    (open_ : ((init fack sndSeq rcvSeq env).run es).connected = true) :
    ((init fack sndSeq rcvSeq env).run es).sender.Open :=
  ((run_inOrder fack sndSeq rcvSeq env es regular).numbered alive).1 open_

/-- Three bytes, and the timer over them. -/
def sentAgain : List Event :=
  [.connect 0, .datagram ⟨0, UdtHdr.TH_SYN ||| UdtHdr.TH_ACK, 32768, 0, 26, 0, 1, 0⟩ [6, 6, 0, 0, 28, 176],
    .send ⟨⟨some [1, 2, 3], fun _ same => by cases same; decide⟩, 0⟩, .slowTimo, .slowTimo, .slowTimo]

/-- Counted from `m_snd_una`, `m_snd_nxt` is at most `m_snd_max`, that is at most the end of what was
queued, and `snd_buf` lies in between in the order of its numbers, without overlap. -/
theorem numbers_in_order
    (regular : Trace.Meets step Regular (init fack sndSeq rcvSeq env) es)
    (alive : ((init fack sndSeq rcvSeq env).run es).sk.nextLayer = true)
    (open_ : ((init fack sndSeq rcvSeq env).run es).connected = true) :
    let s := (init fack sndSeq rcvSeq env).run es
    (s.cb.sndNxt - s.cb.sndUna).toNat ≤ (s.cb.sndMax - s.cb.sndUna).toNat ∧
      (s.cb.sndMax - s.cb.sndUna).toNat ≤ s.sender.reach ∧ s.sender.reach < 2 ^ 31 ∧
      Queued s.cb.sndUna 0 s.sender.bytes s.sk.sndBuf.pkts := by
  intro s
  have numbers : s.sender.Open := run_open regular alive open_
  exact ⟨numbers.order, numbers.laid.max, numbers.laid.half, numbers.laid.queue⟩

theorem numbers_in_order_sentAgain :
    let s := (init 0 0 0 Env.zero).run sentAgain
    s.sender.reach = 3 ∧ Queued s.cb.sndUna 0 s.sender.bytes s.sk.sndBuf.pkts := by
  intro s
  have regular : Trace.Meets step Regular (init 0 0 0 Env.zero) sentAgain := by decide +kernel
  exact ⟨by decide +kernel,
    (numbers_in_order regular (by decide +kernel) (by decide +kernel)).2.2.2⟩

/-- The counters of the sending half count what is there: `m_cc` the bytes of `snd_buf`,
`m_pending_data` those of the sends that wait, and `m_retrans_data` those of the packets marked as sent
again, each of which starts below `m_snd_max`. -/
theorem counters_exact
    (regular : Trace.Meets step Regular (init fack sndSeq rcvSeq env) es)
    (alive : ((init fack sndSeq rcvSeq env).run es).sk.nextLayer = true)
    (open_ : ((init fack sndSeq rcvSeq env).run es).connected = true) :
    let s := (init fack sndSeq rcvSeq env).run es
    s.sk.sndBuf.cc.toNat = totalLen s.sk.sndBuf.pkts ∧
      s.sk.pendingData.toNat = UdtBuf.opsLen s.sk.sendOps ∧
      s.cb.retransData.toNat = flaggedLen s.sk.sndBuf.pkts ∧
      ∀ q ∈ s.sk.sndBuf.pkts, hasRexmt q.hdr.flags = true →
        q.place s.cb.sndUna < (s.cb.sndMax - s.cb.sndUna).toNat := by
  intro s
  have numbers : s.sender.Laid := (run_open regular alive open_).laid
  exact ⟨numbers.cc, numbers.pending, numbers.retrans, numbers.flagged⟩

theorem counters_exact_sentAgain :
    let s := (init 0 0 0 Env.zero).run sentAgain
    s.cb.retransData = 3 ∧ s.cb.retransData.toNat = flaggedLen s.sk.sndBuf.pkts := by
  intro s
  have regular : Trace.Meets step Regular (init 0 0 0 Env.zero) sentAgain := by decide +kernel
  exact ⟨by decide +kernel,
    (counters_exact regular (by decide +kernel) (by decide +kernel)).2.2.1⟩

end Run

end Events

end Endpoint

end UdtBoost
