import UdtBoost.Effects

/-! What `input` makes of one packet, by the points where it stops, and what the options of a packet
do one by one. -/
namespace UdtBoost

/-- The fields of the sending half. -/
structure SendSide where
  iss : Word
  sndUna : Word
  sndNxt : Word
  sndMax : Word
  sndFack : Word
  retransData : Word
  dupacks : Half
  sentfin : Bool
  sndBuf : UdtBuf
  sendOps : List SendOperation
  pendingData : Word
  connected : Bool
  dropped : List (Word × UdtPacket)

/-- One thing that a packet's options do. Every edge they use is one the packet names. -/
inductive OptionStep (p : UdtPacket) : Endpoint → Endpoint → Prop
  | fack {s : Endpoint} {block : PairSeq} (named : block ∈ p.options.1) :
      OptionStep p s { s with cb := s.cb.updateSndFack block.2 }
  | sacked {s : Endpoint} {block : PairSeq} {front back : List UdtPacket} {q : UdtPacket}
      (named : block ∈ p.options.1) (queue : s.sk.sndBuf.pkts = front ++ q :: back)
      (start : seqGe q.hdr.seq block.1) (stop : seqLe q.endSeq block.2) :
      OptionStep p s (s.dropSndPkt front q back)
  | cwnd {s : Endpoint} (cwnd : Word) : OptionStep p s (s.handleOptionCwnd cwnd)
  | rewrite {s : Endpoint} (buffer : Nat) (mem : List UChar) :
      OptionStep p s (s.rewritePkt buffer mem)

abbrev OptionSteps (p : UdtPacket) : Endpoint → Endpoint → Prop :=
  Relation.ReflTransGen (OptionStep p)

namespace Endpoint

def sendSide (s : Endpoint) : SendSide where
  iss := s.cb.iss
  sndUna := s.cb.sndUna
  sndNxt := s.cb.sndNxt
  sndMax := s.cb.sndMax
  sndFack := s.cb.sndFack
  retransData := s.cb.retransData
  dupacks := s.cb.dupacks
  sentfin := s.cb.flags.sentfin
  sndBuf := s.sk.sndBuf
  sendOps := s.sk.sendOps
  pendingData := s.sk.pendingData
  connected := s.connected
  dropped := s.dropped

section Options

variable {p : UdtPacket}

theorem sackBlock_steps (s : Endpoint) {block : PairSeq} (named : block ∈ p.options.1)
    (front back : List UdtPacket) (queue : s.sk.sndBuf.pkts = front ++ back) :
    ∃ front' back' t, s.sackBlock block.1 block.2 front back = (front', back', t) ∧
      t.sk.sndBuf.pkts = front' ++ back' ∧ OptionSteps p s t := by
  induction back generalizing s front with
  | nil => exact ⟨front, [], s, rfl, queue, .refl⟩
  | cons q back ih =>
      rw [sackBlock]
      by_cases below : seqLt q.hdr.seq block.1
      · rw [if_pos below]
        exact ih s (front ++ [q]) (by rw [queue, List.append_assoc, List.singleton_append])
      rw [if_neg below]
      by_cases covered : seqLe q.endSeq block.2
      · rw [if_pos covered]
        obtain ⟨front', back', t, result, queue', steps⟩ :=
          ih (s.dropSndPkt front q back) front (s.dropSndPkt_pkts front back q)
        exact ⟨front', back', t, result, queue', .head (.sacked named queue below covered) steps⟩
      · rw [if_neg covered]
        exact ⟨front, q :: back, s, rfl, queue, .refl⟩

theorem sackBlocks_steps (s : Endpoint) (blocks : List PairSeq)
    (named : ∀ block ∈ blocks, block ∈ p.options.1) (front back : List UdtPacket)
    (queue : s.sk.sndBuf.pkts = front ++ back) :
    OptionSteps p s (s.sackBlocks front back blocks) := by
  induction blocks generalizing s front back with
  | nil => exact .refl
  | cons block blocks ih =>
      obtain ⟨first, others⟩ := List.forall_mem_cons.mp named
      obtain ⟨front', back', t, result, queue', steps⟩ := s.sackBlock_steps first front back queue
      rw [sackBlocks, result]
      exact steps.trans (ih t others front' back' queue')

theorem handleOptionSack_steps (s : Endpoint) (blocks : List PairSeq)
    (named : ∀ block ∈ blocks, block ∈ p.options.1) :
    OptionSteps p s (s.handleOptionSack blocks) := by
  cases blocks with
  | nil => exact .refl
  | cons first blocks =>
      refine .head (.fack (named first List.mem_cons_self)) ?_
      exact sackBlocks_steps _ _ (fun block member => named block (List.mem_reverse.mp member))
        [] _ rfl

theorem handleOptionsLoop_steps (fuel : Nat) (s : Endpoint) (mem : List UChar)
    (ptr remainLen : Nat)
    (named : ∀ block ∈ (optionWalk fuel mem ptr remainLen).1, block ∈ p.options.1) :
    OptionSteps p s (s.handleOptionsLoop fuel mem ptr remainLen).2 := by
  induction fuel generalizing s mem ptr remainLen with
  | zero => exact .refl
  | succ fuel ih =>
      rw [optionWalk] at named
      rw [handleOptionsLoop]
      dsimp only at named ⊢
      by_cases short : remainLen < UdtOption.sizeofOption
      · rw [if_pos short]
      rw [if_neg short] at named ⊢
      by_cases sack : mem.getD ptr 0 = UdtOption.TCPOPT_SACK
      · rw [if_pos sack] at named ⊢
        split
        · exact .refl
        · next inside =>
            rw [if_neg inside] at named
            obtain ⟨here, later⟩ := List.forall_mem_append.mp named
            exact (handleOptionSack_steps s _ here).trans (ih _ _ _ _ later)
      rw [if_neg sack] at named ⊢
      by_cases cwnd : mem.getD ptr 0 = UdtOption.TCPOPT_CWND
      · rw [if_pos cwnd] at named ⊢
        split
        · exact .refl
        · next inside =>
            rw [if_neg inside] at named
            exact .head (.cwnd _) (ih _ _ _ _ named)
      rw [if_neg cwnd] at named ⊢
      split
      · next nop =>
          rw [if_pos nop] at named
          exact ih s _ _ _ named
      · exact .refl

theorem handleOptions_steps (s : Endpoint) (p : UdtPacket) :
    OptionSteps p s (s.handleOptions p) := by
  have steps := handleOptionsLoop_steps (p := p) (p.hdr.off.toNat - UdtHdr.size) s p.mem 0
    (p.hdr.off.toNat - UdtHdr.size) fun _ member => member
  rw [handleOptions]
  dsimp only
  generalize s.handleOptionsLoop (p.hdr.off.toNat - UdtHdr.size) p.mem 0
    (p.hdr.off.toNat - UdtHdr.size) = result at steps ⊢
  obtain ⟨mem, t⟩ := result
  exact steps.tail (.rewrite p.buffer mem)

/-- Options leave alone what they do not name. -/
theorem OptionStep.eq {s t : Endpoint} (step : OptionStep p s t) :
    ∃ fack data pcwnd buf rb dropped, t =
      { s with
        cb.sndFack := fack, cb.retransData := data, cb.pcwnd := pcwnd
        sk.sndBuf := buf, sk.rcvBuf := rb, dropped := dropped } := by
  cases step with
  | fack named =>
      unfold UdtCb.updateSndFack
      split
      · exact ⟨_, s.cb.retransData, s.cb.pcwnd, s.sk.sndBuf, s.sk.rcvBuf, s.dropped, rfl⟩
      · exact ⟨s.cb.sndFack, s.cb.retransData, s.cb.pcwnd, s.sk.sndBuf, s.sk.rcvBuf, s.dropped, rfl⟩
  | sacked =>
      rw [dropSndPkt_eq]
      exact ⟨s.cb.sndFack, _, s.cb.pcwnd, _, s.sk.rcvBuf, _, rfl⟩
  | cwnd =>
      exact ⟨s.cb.sndFack, s.cb.retransData, _, s.sk.sndBuf, s.sk.rcvBuf, s.dropped, rfl⟩
  | rewrite =>
      exact ⟨s.cb.sndFack, s.cb.retransData, s.cb.pcwnd, s.sk.sndBuf, _, s.dropped, rfl⟩

theorem OptionSteps.eq {s t : Endpoint} (steps : OptionSteps p s t) :
    ∃ fack data pcwnd buf rb dropped, t =
      { s with
        cb.sndFack := fack, cb.retransData := data, cb.pcwnd := pcwnd
        sk.sndBuf := buf, sk.rcvBuf := rb, dropped := dropped } := by
  induction steps with
  | refl =>
      exact ⟨s.cb.sndFack, s.cb.retransData, s.cb.pcwnd, s.sk.sndBuf, s.sk.rcvBuf, s.dropped, rfl⟩
  | tail _ step ih =>
      obtain ⟨_, _, _, _, _, _, rfl⟩ := ih
      obtain ⟨fack, data, pcwnd, buf, rb, dropped, rfl⟩ := OptionStep.eq step
      exact ⟨fack, data, pcwnd, buf, rb, dropped, rfl⟩

end Options

section Packet

variable {s t : Endpoint} {p : UdtPacket}

/-- The packet an event brings to the protocol, its header in host order. -/
def arriving (s : Endpoint) : Event → Option UdtPacket
  | .packet hdr mem n => s.sk.rcvPkt.bind fun buffer =>
      if s.sk.nextLayer = true ∧ intact hdr n then some (hostPacket hdr mem buffer) else none
  | _ => none

theorem arriving_inv {e : Event} (here : s.arriving e = some p) : ∃ hdr mem n buffer,
    e = .packet hdr mem n ∧ s.sk.nextLayer = true ∧ s.sk.rcvPkt = some buffer ∧ intact hdr n ∧
      p = hostPacket hdr mem buffer := by
  cases e with
  | packet hdr mem n =>
      obtain ⟨buffer, pending, found⟩ := Option.bind_eq_some_iff.mp here
      split at found
      case isFalse => contradiction
      case isTrue good =>
        exact ⟨hdr, mem, n, buffer, rfl, good.1, pending, good.2, (Option.some.inj found).symm⟩
  | _ => contradiction

/-- The state after `update_rtt`. -/
def timed (s : Endpoint) (p : UdtPacket) : Endpoint :=
  updateRtt { s with cb.pseq := p.hdr.seq, cb.idle := 0, cb.tKeep := sKeepidle } p.hdr.pseq

/-- The state in which `input` looks for the fast path. -/
def entered (s : Endpoint) (p : UdtPacket) : Endpoint := (s.timed p).withRcvWnd

/-- The state in which `input` goes on from the SYN, if there is one. -/
def synced (s : Endpoint) (p : UdtPacket) : Endpoint :=
  if hasSyn p.hdr.flags then ((s.entered p).handleSyn p).2.2 else s.entered p

/-- What the checks of `input` and the work behind them come to. -/
inductive Outcome (s : Endpoint) (p : UdtPacket) : Endpoint → Prop
  | ignored (refused : s.admits p.hdr = false) : Outcome s p (s.timed p)
  | hangup {reset : Bool} (refused : s.admits p.hdr = false) : Outcome s p { s.timed p with
      cb.lastError := .connectionReset, cb.flags.notifyDrop := true, cb.flags.needReset := reset }
  | outside (refused : s.admits p.hdr = false) : Outcome s p
      { s.entered p with cb.flags.acknow := true }
  | ackPredicted (admitted : s.admits p.hdr = true) (state : s.cb.state = .established)
      (isAck : hasAck p.hdr.flags = true) (bare : p.hdr.len = 0)
      (above : seqGt p.hdr.ack s.cb.sndUna) (sent : seqLe p.hdr.ack s.cb.sndMax)
      (taken : ((s.entered p).doHeaderPrediction p).1 = true) :
      Outcome s p ((s.entered p).ackPredicted p.hdr.ack).outputData
  | storePredicted {rb : UdtRcvBuf} (admitted : s.admits p.hdr = true)
      (state : s.cb.state = .established) (isAck : hasAck p.hdr.flags = true)
      (fits : (s.entered p).sk.rcvBuf.append p = some rb)
      (taken : ((s.entered p).doHeaderPrediction p).1 = true) :
      Outcome s p ((s.entered p).storePredicted p.hdr.len rb)
  | synRefused (admitted : s.admits p.hdr = true) (isSyn : hasSyn p.hdr.flags = true)
      (refused : ((s.entered p).handleSyn p).1 = true)
      (later : TcpState.established.value < s.cb.state.value) : Outcome s p (s.synced p)
  | segment (admitted : s.admits p.hdr = true)
      (missed : ((s.entered p).doHeaderPrediction p).1 = false)
      (taken : hasSyn p.hdr.flags = true → ((s.entered p).handleSyn p).1 = false) :
      Outcome s p ((s.synced p).inputSegment p.counted)

theorem timed_eq (s : Endpoint) (p : UdtPacket) :
    ∃ srtt rttvar rtt rxtshift rxtcur read, s.timed p =
      { s with
        cb.pseq := p.hdr.seq, cb.idle := 0, cb.tKeep := sKeepidle
        cb.srtt := srtt, cb.rttvar := rttvar, cb.rtt := rtt
        cb.rxtshift := rxtshift, cb.rxtcur := rxtcur, backoffRead := read } := by
  unfold timed updateRtt
  split
  · obtain ⟨srtt, rttvar, rxtcur, result⟩ := xmitTimer_eq
      { s with cb.pseq := p.hdr.seq, cb.idle := 0, cb.tKeep := sKeepidle } s.cb.rtt
    exact ⟨srtt, rttvar, 0, 0, rxtcur, _, result⟩
  · exact ⟨s.cb.srtt, s.cb.rttvar, s.cb.rtt, s.cb.rxtshift, s.cb.rxtcur, s.backoffRead, rfl⟩

theorem entered_eq (s : Endpoint) (p : UdtPacket) :
    ∃ srtt rttvar rtt rxtshift rxtcur read wnd, s.entered p =
      { s with
        cb.pseq := p.hdr.seq, cb.idle := 0, cb.tKeep := sKeepidle
        cb.srtt := srtt, cb.rttvar := rttvar, cb.rtt := rtt, cb.rcvWnd := wnd
        cb.rxtshift := rxtshift, cb.rxtcur := rxtcur, backoffRead := read } := by
  obtain ⟨srtt, rttvar, rtt, rxtshift, rxtcur, read, result⟩ := s.timed_eq p
  rw [entered, result]
  exact ⟨srtt, rttvar, rtt, rxtshift, rxtcur, read, _, rfl⟩

theorem timed_view (s : Endpoint) (p : UdtPacket) : (s.timed p).view = s.view :=
  updateRtt_view _ _

theorem timed_sendSide (s : Endpoint) (p : UdtPacket) : (s.timed p).sendSide = s.sendSide := by
  obtain ⟨_, _, _, _, _, _, result⟩ := s.timed_eq p
  rw [result]
  rfl

theorem entered_sendSide (s : Endpoint) (p : UdtPacket) : (s.entered p).sendSide = s.sendSide :=
  s.timed_sendSide p

theorem entered_state (s : Endpoint) (p : UdtPacket) : (s.entered p).cb.state = s.cb.state := by
  obtain ⟨_, _, _, _, _, _, _, result⟩ := s.entered_eq p
  rw [result]

theorem stored_eq (s : Endpoint) (p : UdtPacket) :
    ∃ rb nxt acknow delack consumed read, s.stored p =
      { s with
        sk.rcvBuf := rb, cb.rcvNxt := nxt
        cb.flags :=
          { s.cb.flags with
            acknow := acknow, delack := delack, packetConsumed := consumed, notifyRead := read } } := by
  unfold stored
  split
  · exact s.TCP_REASS_eq p
  · exact ⟨s.sk.rcvBuf, s.cb.rcvNxt, s.cb.flags.acknow, s.cb.flags.delack,
      s.cb.flags.packetConsumed, s.cb.flags.notifyRead, rfl⟩

/-- The fast path, as far as it is taken. -/
theorem doHeaderPrediction_cases (s : Endpoint) (p : UdtPacket) :
    s.doHeaderPrediction p = (false, s) ∨
      s.cb.state = .established ∧ hasAck p.hdr.flags = true ∧
        (p.hdr.len = 0 ∧ seqGt p.hdr.ack s.cb.sndUna ∧ seqLe p.hdr.ack s.cb.sndMax ∧
            s.doHeaderPrediction p = (true, (s.ackPredicted p.hdr.ack).outputData) ∨
          p.hdr.len ≠ 0 ∧ ∃ rb, s.sk.rcvBuf.append p = some rb ∧
            s.doHeaderPrediction p = (true, s.storePredicted p.hdr.len rb)) := by
  rw [doHeaderPrediction]
  dsimp only
  split
  case isFalse => exact .inl rfl
  case isTrue usual =>
    obtain ⟨state, flags, _⟩ := usual
    obtain ⟨_, _, isAck⟩ := predicted_flags _ flags
    by_cases bare : p.hdr.len = 0
    · rw [if_pos bare]
      split
      · next new => exact .inr ⟨state, isAck, .inl ⟨bare, new.1, new.2.1, rfl⟩⟩
      · exact .inl rfl
    · rw [if_neg bare]
      split
      · next room =>
          have fits := rcvBuf_append room.2.2
          rw [fits]
          exact .inr ⟨state, isAck, .inr ⟨bare, _, rfl, rfl⟩⟩
      · exact .inl rfl

theorem handleSyn_refused (s : Endpoint) (p : UdtPacket) (alive : s.cb.state ≠ .closed)
    (refused : (s.handleSyn p).1 = true) : TcpState.established.value < s.cb.state.value := by
  unfold handleSyn at refused
  dsimp only at refused
  cases state : s.cb.state <;> simp_all [TcpState.value]

theorem inputChecked_outcome (s : Endpoint) (p : UdtPacket) : Outcome s p (s.inputChecked p) := by
  rw [inputChecked]
  dsimp only
  have timed : s.timed p = updateRtt
    { s with cb.pseq := p.hdr.seq, cb.idle := 0, cb.tKeep := sKeepidle } p.hdr.pseq := rfl
  rw [← timed]
  have view := s.timed_view p
  have state : (s.timed p).cb.state = s.cb.state := congrArg (fun v : View => v.state) view
  have same := admits_of_view view p.hdr
  by_cases closed : (s.timed p).cb.state = .closed
  · have refused : s.admits p.hdr = false := by
      rw [← same, admits, closed]
      rfl
    rw [if_pos closed]
    split
    · exact .hangup refused
    · exact .ignored refused
  rw [if_neg closed]
  by_cases rst : hasRst p.hdr.flags = true
  · have refused : s.admits p.hdr = false := by
      rw [admits, rst]
      simp
    rw [if_pos rst]
    exact .hangup refused
  have windowed : (s.timed p).withRcvWnd = s.entered p := rfl
  rw [if_neg rst, dropOutOfRcvWndPacket_eq, windowed]
  by_cases out : (s.entered p).outOfRcvWnd p.hdr = true
  · have refused : s.admits p.hdr = false := by
      rw [← same, ← Bool.not_eq_true, admits_iff]
      exact fun admitted => Bool.noConfusion (admitted.2.2.symm.trans out)
    rw [if_pos out]
    exact .outside refused
  rw [if_neg out]
  have admitted : s.admits p.hdr = true := by
    rw [← same, admits_iff, windowed]
    exact ⟨closed, by simpa using rst, by simpa using out⟩
  dsimp only
  have una : (s.entered p).cb.sndUna = s.cb.sndUna :=
    congrArg SendSide.sndUna (s.entered_sendSide p)
  have max : (s.entered p).cb.sndMax = s.cb.sndMax :=
    congrArg SendSide.sndMax (s.entered_sendSide p)
  have entered := s.entered_state p
  obtain missed | ⟨open_, isAck, ⟨bare, above, sent, taken⟩ | ⟨_, rb, fits, taken⟩⟩ :=
    (s.entered p).doHeaderPrediction_cases p
  · rw [missed]
    dsimp only
    have missed : ((s.entered p).doHeaderPrediction p).1 = false := by rw [missed]
    by_cases isSyn : hasSyn p.hdr.flags = true
    · rw [if_pos isSyn]
      have synced : s.synced p = ((s.entered p).handleSyn p).2.2 := if_pos isSyn
      have counted := (s.entered p).handleSyn_counted isSyn
      have later := (s.entered p).handleSyn_refused p (by rwa [entered, ← state])
      cases result : (s.entered p).handleSyn p with
      | mk refused rest =>
          obtain ⟨q, x⟩ := rest
          rw [result] at synced counted later
          cases refused
          · dsimp only at synced counted ⊢
            rw [← synced, counted]
            exact .segment admitted missed fun _ => by rw [result]
          · dsimp only at synced ⊢
            rw [← synced]
            exact .synRefused admitted isSyn (by rw [result]) (entered ▸ later rfl)
    · rw [if_neg isSyn]
      have synced : s.synced p = s.entered p := if_neg isSyn
      have plain : p.counted = p := if_neg isSyn
      have outcome := Outcome.segment admitted missed fun syn => absurd syn isSyn
      rwa [synced, plain] at outcome
  · rw [taken]
    exact .ackPredicted admitted (entered ▸ open_) isAck bare (una ▸ above) (max ▸ sent)
      (by rw [taken])
  · rw [taken]
    exact .storePredicted admitted (entered ▸ open_) isAck fits (by rw [taken])

/-- The state in which `handle_ack` compares the acknowledgement with `m_snd_una`. -/
def acked (s : Endpoint) (p : UdtPacket) : Endpoint :=
  let s := if s.cb.sndMax = p.hdr.ack then s.updateAckState else s
  if UdtHdr.size < p.hdr.off.toNat then s.handleOptions p else s

/-- The acknowledgement is neither old nor of something not sent. -/
def acceptsAck (s : Endpoint) (ti : UdtHdr) : Prop :=
  ¬ seqLt ti.ack s.cb.sndUna ∧ ¬ seqGt ti.ack s.cb.sndMax

instance (s : Endpoint) (ti : UdtHdr) : Decidable (s.acceptsAck ti) :=
  inferInstanceAs (Decidable (_ ∧ _))

inductive AckOutcome (s : Endpoint) (p : UdtPacket) : Bool × Endpoint → Prop
  | old (old : seqLt p.hdr.ack s.cb.sndUna) : AckOutcome s p (true, s)
  | beyond (beyond : seqGt p.hdr.ack s.cb.sndMax) : AckOutcome s p (true, { s with
      cb.lastError := .malformedPacket, cb.flags.notifyDrop := true, cb.flags.needReset := true })
  | duplicate (accepted : s.acceptsAck p.hdr) (same : p.hdr.ack = s.cb.sndUna) :
      AckOutcome s p ((s.acked p).ackDuplicate p.hdr)
  | new (accepted : s.acceptsAck p.hdr) (above : seqGt p.hdr.ack s.cb.sndUna) :
      AckOutcome s p (false, (s.acked p).ackNewData p.hdr)

/-- What everything but the queue and what the options name is after them. -/
theorem acked_eq (s : Endpoint) (p : UdtPacket) :
    ∃ srtt rttvar rtt rxtshift rxtcur tRexmt tPersist tKeep t2msl drop connect accept posted read
      fack data pcwnd buf rb dropped, s.acked p =
        { s with
          cb.state := if s.cb.sndMax = p.hdr.ack then s.cb.state.acked s.cb.flags.sentfin
            else s.cb.state
          cb.srtt := srtt, cb.rttvar := rttvar, cb.rtt := rtt, cb.rxtshift := rxtshift
          cb.rxtcur := rxtcur, cb.tRexmt := tRexmt, cb.tPersist := tPersist, cb.tKeep := tKeep
          cb.t2msl := t2msl
          cb.flags :=
            { s.cb.flags with
              acknow := s.cb.flags.acknow ||
                (decide (s.cb.sndMax = p.hdr.ack) && decide (s.cb.state = .synSent))
              notifyDrop := drop }
          cb.sndFack := fack, cb.retransData := data, cb.pcwnd := pcwnd
          connected := s.connected ||
            (decide (s.cb.sndMax = p.hdr.ack) && s.cb.state == .synReceived)
          sk.connectHandler := connect
          sk.acceptHandler := accept
          sk.sndBuf := buf
          sk.rcvBuf := rb
          posted := posted
          dropped := dropped
          backoffRead := read } := by
  have options : ∀ t : Endpoint, OptionSteps p t
      (if UdtHdr.size < p.hdr.off.toNat then t.handleOptions p else t) := by
    intro t
    split
    · exact t.handleOptions_steps p
    · exact .refl
  unfold acked
  dsimp only
  obtain ⟨fack, data, pcwnd, buf, rb, dropped, result⟩ := OptionSteps.eq (options
    (if s.cb.sndMax = p.hdr.ack then s.updateAckState else s))
  rw [result]
  by_cases all : s.cb.sndMax = p.hdr.ack
  · obtain ⟨srtt, rttvar, rtt, rxtshift, rxtcur, tRexmt, tPersist, tKeep, t2msl, drop, connect,
      accept, posted, read, state⟩ := s.updateAckState_eq
    rw [if_pos all, state]
    refine ⟨srtt, rttvar, rtt, rxtshift, rxtcur, tRexmt, tPersist, tKeep, t2msl, drop, connect,
      accept, posted, read, fack, data, pcwnd, buf, rb, dropped, ?_⟩
    simp [all]
  · rw [if_neg all]
    refine ⟨s.cb.srtt, s.cb.rttvar, s.cb.rtt, s.cb.rxtshift, s.cb.rxtcur, s.cb.tRexmt,
      s.cb.tPersist, s.cb.tKeep, s.cb.t2msl, s.cb.flags.notifyDrop, s.sk.connectHandler,
      s.sk.acceptHandler, s.posted, s.backoffRead, fack, data, pcwnd, buf, rb, dropped, ?_⟩
    simp [all]

theorem handleAck_outcome (s : Endpoint) (p : UdtPacket) : AckOutcome s p (s.handleAck p) := by
  obtain ⟨_, _, _, _, _, _, _, _, _, _, _, _, _, _, _, _, _, _, _, _, result⟩ := s.acked_eq p
  have una : (s.acked p).cb.sndUna = s.cb.sndUna := by rw [result]
  rw [handleAck]
  dsimp only
  by_cases old : seqLt p.hdr.ack s.cb.sndUna
  · rw [if_pos old]
    exact .old old
  rw [if_neg old]
  by_cases beyond : seqGt p.hdr.ack s.cb.sndMax
  · rw [if_pos beyond]
    exact .beyond beyond
  rw [if_neg beyond]
  have acked : s.acked p = if UdtHdr.size < p.hdr.off.toNat then
    (if s.cb.sndMax = p.hdr.ack then s.updateAckState else s).handleOptions p
    else if s.cb.sndMax = p.hdr.ack then s.updateAckState else s := rfl
  rw [← acked, una]
  by_cases same : p.hdr.ack = s.cb.sndUna
  · rw [if_pos same]
    exact .duplicate ⟨old, beyond⟩ same
  · rw [if_neg same]
    refine .new ⟨old, beyond⟩ ?_
    rw [seqLt_iff] at old
    rw [seqGt_iff]
    bv_omega

end Packet

end Endpoint
end UdtBoost
