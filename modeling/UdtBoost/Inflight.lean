import UdtBoost.Numbering

/-! What is in flight when everything is acknowledged. `m_snd_nxt` is back at `m_snd_una` then and
nothing is marked as sent again, so that `bytes_inflight` is zero as long as `m_snd_fack` does not
fall behind `m_snd_una`. Only the edge of a selective acknowledgement can bring that about. -/
namespace UdtBoost

/-- The call sets the window by `slow_start`. -/
def OutputCall.StartsSlowly (k : OutputCall) : Prop :=
  k.before.cb.sndMax = k.before.cb.sndUna ∧ k.before.cb.rxtcur.toInt ≤ k.before.cb.idle.toInt ∧
    k.before.cb.isPktLostRateIncr = true

instance (k : OutputCall) : Decidable k.StartsSlowly := inferInstanceAs (Decidable (_ ∧ _ ∧ _))

/-- A slow start finds nothing in flight. -/
def OutputCall.Drained (k : OutputCall) : Prop :=
  k.StartsSlowly → k.before.cb.bytesInflight = 0

/-- What a pass of `output` leaves alone. -/
structure Standing where
  state : TcpState
  maxseg : Half
  sndUna : Word
  sndFack : Word
  sndCwnd : Word
  tstampFirst : Word
  tstampSecond : Word
  tstampThird : Word
  connected : Bool
  calls : List OutputCall

namespace Endpoint

variable {s t : Endpoint} {p : UdtPacket}

open Sender (Open Opening)

def standing (s : Endpoint) : Standing where
  state := s.cb.state
  maxseg := s.cb.maxseg
  sndUna := s.cb.sndUna
  sndFack := s.cb.sndFack
  sndCwnd := s.cb.sndCwnd
  tstampFirst := s.cb.tstampFirst
  tstampSecond := s.cb.tstampSecond
  tstampThird := s.cb.tstampThird
  connected := s.connected
  calls := s.calls

/-- With everything acknowledged nothing is to be sent and nothing was sent again. -/
def Orderly (s : Endpoint) : Prop :=
  s.cb.sndMax = s.cb.sndUna → s.cb.sndNxt = s.cb.sndUna ∧ s.cb.retransData = 0

/-- `m_snd_fack` is not behind `m_snd_una`. Before the first connection sets it, it is whatever its
memory held, and no loss has been counted. -/
def Ahead (s : Endpoint) : Prop :=
  ¬ seqLt s.cb.sndFack s.cb.sndUna ∨ s.connected = false ∧
    (s.cb.state = .listen ∨ s.cb.state = .closed ∧ s.cb.tRexmt = 0) ∧
      s.cb.isPktLostRateIncr = false

structure Tallied (s : Endpoint) : Prop where
  ahead : s.Ahead
  calls : ∀ k ∈ s.calls, k.Drained

theorem Open.orderly (o : s.sender.Open) : s.Orderly := by
  intro all
  have none : s.sender.off s.cb.sndMax = 0 := by
    rw [all]
    exact s.sender.off_una
  constructor
  · have first : s.sender.off s.cb.sndNxt = 0 := by
      have order : s.sender.off s.cb.sndNxt ≤ s.sender.off s.cb.sndMax := o.order
      omega
    exact Sender.off_eq_iff.mp (first.trans s.sender.off_una.symm)
  · have plain : ∀ q ∈ s.sk.sndBuf.pkts, hasRexmt q.hdr.flags = false := by
      intro q member
      by_contra marked
      have inside := o.laid.flagged q member (Bool.not_eq_false _ ▸ marked)
      have max : s.sender.off s.sender.max = 0 := none
      omega
    have total : s.cb.retransData.toNat = flaggedLen s.sk.sndBuf.pkts := o.laid.retrans
    rw [flaggedLen_of_plain plain] at total
    exact BitVec.eq_of_toNat_eq total

theorem Opening.orderly (o : s.sender.Opening s.cb.tRexmt) (here : s.cb.state ≠ .closed) :
    s.Orderly := by
  intro all
  refine ⟨?_, o.fresh.retrans⟩
  rcases o.fresh.state with state | state | state | state
  · exact absurd state here
  · exact (o.quiet state).2.2.trans all
  · exact (o.spoken (.inl state)).1.trans all
  · exact (o.spoken (.inr state)).1.trans all

theorem InOrder.orderly (o : s.InOrder) (here : s.cb.state ≠ .closed) : s.Orderly := by
  have alive : s.sk.nextLayer = true := by
    by_contra shut
    exact here (o.shut (Bool.eq_false_iff.mpr shut))
  by_cases yes : s.connected = true
  · exact Open.orderly ((o.numbered alive).1 yes)
  · exact Opening.orderly ((o.numbered alive).2 (Bool.eq_false_iff.mpr yes)) here

/-- Nothing is in flight when everything is acknowledged. -/
theorem Ahead.drained (ahead : s.Ahead) (orderly : s.Orderly)
    (all : s.cb.sndMax = s.cb.sndUna) (faster : s.cb.isPktLostRateIncr = true) :
    s.cb.bytesInflight = 0 := by
  obtain ⟨nxt, retrans⟩ := orderly all
  rcases ahead with ahead | ⟨_, _, unlost⟩
  · rw [seqLt_iff] at ahead
    unfold UdtCb.bytesInflight
    rw [nxt, retrans]
    dsimp only
    split_ifs with negative
    · rfl
    · rw [BitVec.toInt_eq_toNat_cond] at negative
      split_ifs at negative <;> bv_omega
  · rw [unlost] at faster
    contradiction

theorem Ahead.same (ahead : s.Ahead) (same : t.standing = s.standing)
    (timer : s.cb.state = .closed → s.cb.tRexmt = 0 → t.cb.tRexmt = 0) : t.Ahead := by
  have state : t.cb.state = s.cb.state := congrArg Standing.state same
  have una : t.cb.sndUna = s.cb.sndUna := congrArg Standing.sndUna same
  have fack : t.cb.sndFack = s.cb.sndFack := congrArg Standing.sndFack same
  have connected : t.connected = s.connected := congrArg Standing.connected same
  have first : t.cb.tstampFirst = s.cb.tstampFirst := congrArg Standing.tstampFirst same
  have second : t.cb.tstampSecond = s.cb.tstampSecond := congrArg Standing.tstampSecond same
  have third : t.cb.tstampThird = s.cb.tstampThird := congrArg Standing.tstampThird same
  unfold Ahead UdtCb.isPktLostRateIncr at *
  rw [state, una, fack, connected, first, second, third]
  refine ahead.imp id fun ⟨shut, where_, unlost⟩ => ⟨shut, ?_, unlost⟩
  exact where_.imp id fun ⟨closed, off⟩ => ⟨closed, timer closed off⟩

theorem Tallied.same (tallied : s.Tallied) (same : t.standing = s.standing)
    (timer : s.cb.state = .closed → s.cb.tRexmt = 0 → t.cb.tRexmt = 0) : t.Tallied where
  ahead := tallied.ahead.same same timer
  calls := by
    rw [show t.calls = s.calls from congrArg Standing.calls same]
    exact tallied.calls

/-- A socket that has not been closed before its first connection. -/
def Met (s : Endpoint) : Prop :=
  s.cb.state = .closed → ¬ seqLt s.cb.sndFack s.cb.sndUna

theorem Tallied.retimed (tallied : s.Tallied) (met : s.Met) (same : t.standing = s.standing) : t.Tallied := by
  by_cases closed : s.cb.state = .closed
  · have una : t.cb.sndUna = s.cb.sndUna := congrArg Standing.sndUna same
    have fack : t.cb.sndFack = s.cb.sndFack := congrArg Standing.sndFack same
    have calls : t.calls = s.calls := congrArg Standing.calls same
    refine ⟨.inl ?_, by rw [calls]; exact tallied.calls⟩
    rw [una, fack]
    exact met closed
  · exact tallied.same same fun same => absurd same closed

section Output

theorem outputPass_standing (s : Endpoint) : s.outputPass.2.2.standing = s.standing := by
  have consumed : (s.outputConsume s.canSendBytes).standing = s.standing := by
    unfold outputConsume
    split
    · obtain ⟨_, _, _, _, _, result⟩ := s.consumePendingData_spec
      rw [result]
      rfl
    · rfl
  rw [outputPass, ← consumed]
  dsimp only
  generalize s.canSendBytes = canSend
  generalize s.outputConsume canSend = w
  cases select : w.outputSelect (w.outputForce canSend) with
  | mk pkt u =>
    have selected : (u.ready pkt).standing = w.standing := by
      obtain ⟨_, _, result⟩ := u.ready_eq pkt
      rw [result]
      cases outputSelect_selects select <;> rfl
    have sent (raw : Word) (env : Env) (t : Transmission) :
        (transmit { u.ready pkt with env } pkt raw t).standing = w.standing := by
      obtain ⟨_, _, _, _, _, _, _, result⟩ := transmit_eq { u.ready pkt with env } pkt raw t
      rw [result]
      exact selected
    dsimp only
    have ready : (if (pkt.isSome && !u.cb.force) = true then { u with cb := u.cb.leavePersist }
      else u) = u.ready pkt := rfl
    rw [ready]
    split
    · exact sent _ _ _
    split
    · exact sent _ (u.ready pkt).env _
    split
    · obtain ⟨_, _, result⟩ := enterPersist_eq { u.ready pkt with cb.rxtshift := 0 }
      rw [result]
      exact selected
    · exact selected

theorem outputLoop_standing (clamp : Nat) (s : Endpoint) : (s.outputLoop clamp).2.standing = s.standing := by
  induction clamp generalizing s with
  | zero => rfl
  | succ clamp ih =>
    have pass := s.outputPass_standing
    rw [outputLoop]
    generalize s.outputPass = result at pass ⊢
    obtain ⟨_, again, x⟩ := result
    cases again with
    | false => exact pass
    | true => exact (ih x).trans pass

/-- A call from a state whose numbers are in order starts slowly with nothing in flight. -/
theorem output_tallied_of (tallied : s.Tallied) (orderly : s.cb.state ≠ .closed → s.Orderly) :
    s.output.Tallied := by
  unfold output
  split
  · exact tallied
  · next here =>
    have loop := outputLoop_standing sendPacketsClamp s.outputIdle
    have started : s.outputIdle.standing = { s.standing with sndCwnd := s.outputIdle.cb.sndCwnd } := by
      unfold outputIdle UdtCb.slowStart
      split
      · split <;> rfl
      · rfl
    generalize s.outputIdle.outputLoop sendPacketsClamp = result at loop ⊢
    obtain ⟨sent, x⟩ := result
    have same : ({ x with cb.sndCwnd := s.cb.sndCwnd } : Endpoint).standing = s.standing := by
      have whole := loop.trans started
      exact congrArg (fun v : Standing => { v with sndCwnd := s.cb.sndCwnd }) whole
    have kept := tallied.same same fun closed => absurd closed here
    refine ⟨kept.ahead, List.forall_mem_append.mpr ⟨kept.calls, ?_⟩⟩
    refine List.forall_mem_singleton.mpr fun ⟨all, _, faster⟩ => ?_
    exact tallied.ahead.drained (orderly here) all faster

theorem output_tallied (tallied : s.Tallied) (o : s.InOrder) : s.output.Tallied :=
  output_tallied_of tallied o.orderly

theorem recvData_tallied (tallied : s.Tallied) (o : s.InOrder) : s.recvData.Tallied := by
  unfold recvData
  split
  · exact tallied
  obtain ⟨_, _, _, _, _, _, result⟩ := s.recvDataLoop_spec s.sk.recvOps
  have read : (s.recvDataLoop s.sk.recvOps).2.Tallied ∧ (s.recvDataLoop s.sk.recvOps).2.InOrder := by
    rw [result]
    exact ⟨tallied.same rfl fun _ off => off, o.same rfl rfl rfl⟩
  generalize s.recvDataLoop s.sk.recvOps = loop at read ⊢
  obtain ⟨output, x⟩ := loop
  dsimp only
  split
  · exact output_tallied read.1 read.2
  · exact read.1

theorem consumePendingData_tallied (tallied : s.Tallied) : s.consumePendingData.2.Tallied := by
  obtain ⟨_, _, _, _, _, result⟩ := s.consumePendingData_spec
  rw [result]
  exact tallied.same rfl fun _ off => off

theorem onWritable_tallied (tallied : s.Tallied) (o : s.InOrder) : s.onWritable.Tallied := by
  have consumed := consumePendingData_tallied tallied
  have order : s.consumePendingData.2.InOrder := Output.consume.inOrder o
  unfold onWritable
  split
  · generalize s.consumePendingData = result at consumed order ⊢
    obtain ⟨n, x⟩ := result
    dsimp only
    split
    · exact output_tallied consumed order
    · exact consumed
  · exact tallied

theorem onDisconnected_tallied (tallied : s.Tallied) (o : s.InOrder) : s.onDisconnected.Tallied := by
  unfold onDisconnected
  split
  · dsimp only
    rw [notifySends_eq]
    have notified : Tallied
        { s with posted := s.posted ++ s.sk.sendOps.map (.sent · .disconnected 0) } :=
      tallied.same rfl fun _ off => off
    have read := recvData_tallied notified (o.same rfl rfl rfl)
    generalize recvData _ = x at read ⊢
    rw [postHandlers_eq]
    exact read.same rfl fun _ off => off
  · exact tallied

theorem drop_tallied (tallied : s.Tallied) (o : s.InOrder) (e : UdtError) : (s.drop e).Tallied := by
  have failed : (if e ≠ .succeed then { s with cb.lastError := e } else s : Endpoint).Tallied ∧
      (if e ≠ .succeed then { s with cb.lastError := e } else s : Endpoint).InOrder := by
    split
    · exact ⟨tallied.same rfl fun _ off => off, o.same rfl rfl rfl⟩
    · exact ⟨tallied, o⟩
  unfold drop
  dsimp only
  generalize (if e ≠ .succeed then { s with cb.lastError := e } else s : Endpoint) = x at failed ⊢
  have left := onDisconnected_tallied failed.1 failed.2
  have order := onDisconnected_inOrder failed.2
  refine ⟨left.ahead.imp id fun ⟨shut, where_, unlost⟩ => ⟨shut, .inr ⟨rfl, ?_⟩, unlost⟩, left.calls⟩
  rcases where_ with listen | ⟨_, off⟩
  · by_cases alive : x.onDisconnected.sk.nextLayer = true
    · exact (((order.numbered alive).2 shut).quiet listen).1
    · rw [order.shut (Bool.eq_false_iff.mpr alive)] at listen
      contradiction
  · exact off

end Output

section Packet

/-- No selective acknowledgement in the packet ends behind `m_snd_una`, which a SYN in LISTEN sets
to `m_iss`. -/
def Covered (s : Endpoint) (p : UdtPacket) : Prop :=
  hasAck p.hdr.flags = true → ∀ block ∈ p.options.1, ¬ seqLt block.2
    (if s.cb.state = .listen ∧ hasSyn p.hdr.flags = true then sIss else s.cb.sndUna)

instance (s : Endpoint) (p : UdtPacket) : Decidable (s.Covered p) :=
  have : Decidable (∀ block ∈ p.options.1, ¬ seqLt block.2
      (if s.cb.state = .listen ∧ hasSyn p.hdr.flags = true then sIss else s.cb.sndUna)) :=
    List.decidableBAll _ _
  inferInstanceAs (Decidable (_ → _))

/-- Past LISTEN the numbers have been set. -/
theorem Ahead.begun (ahead : s.Ahead) (here : s.cb.state ≠ .closed)
    (talks : s.cb.state ≠ .listen) : ¬ seqLt s.cb.sndFack s.cb.sndUna := by
  rcases ahead with ahead | ⟨_, listen | ⟨closed, _⟩, _⟩
  · exact ahead
  · exact absurd listen talks
  · exact absurd closed here

theorem Ahead.running (ahead : s.Ahead) (o : s.InOrder) (on : s.cb.tRexmt ≠ 0) :
    ¬ seqLt s.cb.sndFack s.cb.sndUna := by
  rcases ahead with ahead | ⟨shut, listen | ⟨_, off⟩, _⟩
  · exact ahead
  · have alive : s.sk.nextLayer = true := by
      by_contra closed
      rw [o.shut (Bool.eq_false_iff.mpr closed)] at listen
      contradiction
    exact absurd (((o.numbered alive).2 shut).quiet listen).1 on
  · exact absurd off on

theorem updateSndUna_ahead (c : UdtCb) (ack : Word) :
    ¬ seqLt (c.updateSndUna ack).sndFack (c.updateSndUna ack).sndUna := by
  unfold UdtCb.updateSndUna UdtCb.updateSndFack
  dsimp only
  split <;> split
  · exact seqLt_irrefl _
  · assumption
  · exact seqLt_irrefl _
  · assumption

theorem handleSyn_tallied (tallied : s.Tallied) (here : s.cb.state ≠ .closed) (p : UdtPacket) :
    (s.handleSyn p).2.2.Tallied := by
  obtain ⟨_, _, _, result⟩ := s.handleSyn_eq p
  rw [result]
  split
  · by_cases listen : s.cb.state = .listen
    · rw [if_pos listen]
      exact ⟨.inl (seqLt_irrefl _), tallied.calls⟩
    · rw [if_neg listen]
      exact ⟨.inl (tallied.ahead.begun here listen), tallied.calls⟩
  · exact tallied.same rfl fun _ off => off

theorem updateAckState_tallied (tallied : s.Tallied) (here : s.cb.state ≠ .closed) :
    s.updateAckState.Tallied := by
  obtain ⟨_, _, _, _, _, _, _, _, _, _, _, _, _, _, result⟩ := s.updateAckState_eq
  rw [result]
  refine ⟨tallied.ahead.imp id fun ⟨shut, where_, unlost⟩ => ?_, tallied.calls⟩
  rcases where_ with listen | ⟨closed, _⟩
  · refine ⟨?_, .inl ?_, unlost⟩
    · change (s.connected || s.cb.state == .synReceived) = false
      rw [shut, listen]
      rfl
    · change s.cb.state.acked s.cb.flags.sentfin = .listen
      rw [listen]
      cases s.cb.flags.sentfin <;> rfl
  · exact absurd closed here

theorem OptionSteps.tallied {x y : Endpoint} (steps : OptionSteps p x y) (tallied : x.Tallied)
    (covered : ∀ block ∈ p.options.1, ¬ seqLt block.2 x.cb.sndUna) : y.Tallied := by
  induction steps with
  | refl => exact tallied
  | @tail u w steps step ih =>
      obtain ⟨_, _, _, _, _, _, before⟩ := OptionSteps.eq steps
      have una : u.cb.sndUna = x.cb.sndUna := by rw [before]
      cases step with
      | @fack block named =>
          unfold UdtCb.updateSndFack
          split
          · refine ⟨.inl ?_, ih.calls⟩
            change ¬ seqLt block.2 u.cb.sndUna
            rw [una]
            exact covered block named
          · exact ih
      | sacked =>
          rw [dropSndPkt_eq]
          exact ih.same rfl fun _ off => off
      | cwnd => exact ih.same rfl fun _ off => off
      | rewrite => exact ih.same rfl fun _ off => off

theorem acked_tallied (tallied : s.Tallied) (here : s.cb.state ≠ .closed)
    (covered : ∀ block ∈ p.options.1, ¬ seqLt block.2 s.cb.sndUna) : (s.acked p).Tallied := by
  have first : (if s.cb.sndMax = p.hdr.ack then s.updateAckState else s).Tallied ∧
      (if s.cb.sndMax = p.hdr.ack then s.updateAckState else s).cb.sndUna = s.cb.sndUna := by
    split
    · obtain ⟨_, _, _, _, _, _, _, _, _, _, _, _, _, _, result⟩ := s.updateAckState_eq
      exact ⟨updateAckState_tallied tallied here, by rw [result]⟩
    · exact ⟨tallied, rfl⟩
  unfold acked
  dsimp only
  generalize (if s.cb.sndMax = p.hdr.ack then s.updateAckState else s) = x at first ⊢
  split
  · refine OptionSteps.tallied (x.handleOptions_steps p) first.1 ?_
    rwa [first.2]
  · exact first.1

theorem dropAckedData_tallied (tallied : s.Tallied) (ack : Word) : (s.dropAckedData ack).Tallied ∧
    ¬ seqLt (s.dropAckedData ack).cb.sndFack (s.dropAckedData ack).cb.sndUna := by
  obtain ⟨gone, rest, _, _, _, result⟩ := s.dropAckedData_spec ack
  have ahead := updateSndUna_ahead
    { s.cb with retransData := gone.foldl retransLeft s.cb.retransData } ack
  rw [result]
  exact ⟨⟨.inl ahead, tallied.calls⟩, ahead⟩

theorem resetRexmtTimer_tallied (tallied : s.Tallied) (met : s.Met) :
    Tallied { s with cb := s.cb.resetRexmtTimer } := by
  obtain ⟨_, _, timer⟩ := resetRexmtTimer_eq s.cb
  rw [timer]
  exact tallied.retimed met rfl

theorem ackNewData_tallied (tallied : s.Tallied) (ti : UdtHdr) : (s.ackNewData ti).Tallied := by
  unfold ackNewData UdtCb.incrSndCwnd
  dsimp only
  generalize (if s.cb.sndCwnd + _ < TCP_MAXCWIN then _ else TCP_MAXCWIN : Word) = cwnd
  have opened : Tallied { s with
      cb := { s.cb with flags.notifyWrite := true, sndCwnd := cwnd, dupacks := 0 } } :=
    ⟨tallied.ahead, tallied.calls⟩
  have dropped := dropAckedData_tallied opened ti.ack
  generalize dropAckedData _ ti.ack = x at dropped ⊢
  obtain ⟨dropped, ahead⟩ := dropped
  obtain ⟨most, window⟩ := updateSndWnd_eq x.cb (ti.win.setWidth 32)
  rw [window]
  exact resetRexmtTimer_tallied (s := { x with cb := { x.cb with
    sndWnd := ti.win.setWidth 32, maxSndwnd := most, flags.needOutput := true } })
    (dropped.same rfl fun _ off => off) fun _ => ahead

/-- With everything acknowledged a fast retransmission starts at `m_snd_una` and finds no packet
that was sent again. -/
theorem beginFastRexmt_orderly (o : s.InOrder) (alive : s.sk.nextLayer = true) {ack : Word}
    (same : ack = s.cb.sndUna) : (s.beginFastRexmt ack).Orderly := by
  have numbered := o.numbered alive
  by_cases yes : s.connected = true
  · exact Open.orderly (beginFastRexmt_open (numbered.1 yes) same).1
  · have fresh := (numbered.2 (Bool.eq_false_iff.mpr yes)).fresh
    have begun : s.beginFastRexmt ack = { s with
        cb.tRexmt := 0, cb.sndNxt := ack
        cb.sndCwnd := UdtCb.bytesInflight { s.cb with tRexmt := 0, sndNxt := ack } +
          s.cb.maxseg.setWidth 32 } := by
      unfold beginFastRexmt
      exact validateFirstPkt_empty fresh.pkts
    rw [begun]
    exact fun _ => ⟨same, fresh.retrans⟩

theorem handlePacketLost_tallied (tallied : s.Tallied) (ahead : ¬ seqLt s.cb.sndFack s.cb.sndUna) :
    s.handlePacketLost.Tallied := by
  obtain ⟨_, _, _, _, _, result⟩ := s.handlePacketLost_eq
  rw [result]
  exact ⟨.inl ahead, tallied.calls⟩

theorem doFastRexmt_tallied (tallied : s.Tallied) (o : s.InOrder) (alive : s.sk.nextLayer = true)
    {ack : Word} (same : ack = s.cb.sndUna) (running : s.cb.tRexmt ≠ 0) :
    (s.doFastRexmt ack).Tallied := by
  have lost := handlePacketLost_tallied tallied (tallied.ahead.running o running)
  obtain ⟨sender, timer, sent⟩ := s.handlePacketLost_same
  have order : s.handlePacketLost.InOrder := o.same sender timer sent
  have una : s.handlePacketLost.cb.sndUna = s.cb.sndUna := congrArg Sender.una sender
  have alive : s.handlePacketLost.sk.nextLayer = true :=
    (congrArg Sender.nextLayer sender).trans alive
  have ahead : ¬ seqLt s.handlePacketLost.cb.sndFack s.handlePacketLost.cb.sndUna :=
    lost.ahead.running order (timer.symm ▸ running)
  rw [doFastRexmt]
  dsimp only
  generalize s.cb.sndNxt = old
  rw [← una] at same
  generalize s.handlePacketLost = x at lost order alive ahead same ⊢
  have begun : (x.beginFastRexmt ack).Tallied := by
    unfold beginFastRexmt
    dsimp only
    obtain ⟨_, _, _, result, _⟩ := validateFirstPkt_eq { x with
      cb.tRexmt := 0, cb.sndNxt := ack
      cb.sndCwnd := UdtCb.bytesInflight { x.cb with tRexmt := 0, sndNxt := ack } +
        x.cb.maxseg.setWidth 32 }
    rw [result]
    exact ⟨.inl ahead, lost.calls⟩
  have sent := output_tallied_of begun fun _ => beginFastRexmt_orderly order alive same
  exact ⟨sent.ahead, sent.calls⟩

theorem ackDuplicate_tallied (tallied : s.Tallied) (met : s.Met) (o : s.InOrder)
    (alive : s.sk.nextLayer = true) {ti : UdtHdr} (same : ti.ack = s.cb.sndUna) :
    (s.ackDuplicate ti).2.Tallied := by
  rw [ackDuplicate]
  dsimp only
  split
  · obtain ⟨most, window⟩ := updateSndWnd_eq s.cb (ti.win.setWidth 32)
    rw [window]
    exact resetRexmtTimer_tallied (s := { s with cb := { s.cb with
      sndWnd := ti.win.setWidth 32, maxSndwnd := most, flags.needOutput := true } })
      (tallied.same rfl fun _ off => off) met
  split
  · exact resetRexmtTimer_tallied (s := { s with cb.dupacks := 0 })
      (tallied.same rfl fun _ off => off) met
  split
  · next running _ =>
      exact doFastRexmt_tallied (s := { s with cb.dupacks := s.cb.dupacks + 1, cb.rtt := 0 })
        (tallied.same rfl fun _ off => off) (o.same rfl rfl rfl) alive same running
  split
  · exact tallied.same rfl fun _ off => off
  · exact resetRexmtTimer_tallied (s := { s with cb.dupacks := s.cb.dupacks + 1 })
      (tallied.same rfl fun _ off => off) met

/-- A connection that ends with its last acknowledgement was open. -/
theorem acked_met (o : s.InOrder) (alive : s.sk.nextLayer = true) (here : s.cb.state ≠ .closed)
    (acked : (s.acked p).Tallied) : (s.acked p).Met := by
  intro closed
  refine acked.ahead.resolve_right fun ⟨shut, _⟩ => ?_
  obtain ⟨_, _, _, _, _, _, _, _, _, _, _, _, _, _, _, _, _, _, _, _, result⟩ := s.acked_eq p
  rw [result] at closed shut
  have unopened : s.connected = false := (Bool.or_eq_false_iff.mp shut).1
  have state : s.cb.state.inHandshake :=
    ((o.numbered alive).2 unopened).fresh.state.resolve_left here
  revert closed
  dsimp only
  rcases state with state | state | state <;> rw [state] <;> split <;> simp [TcpState.acked]

theorem handleAck_tallied (tallied : s.Tallied) (o : s.InOrder) (alive : s.sk.nextLayer = true)
    (here : s.cb.state ≠ .closed)
    (covered : ∀ block ∈ p.options.1, ¬ seqLt block.2 s.cb.sndUna) :
    (s.handleAck p).2.Tallied := by
  have acked := acked_tallied tallied here covered
  have met := acked_met o alive here acked
  have order := acked_inOrder o alive p
  have layer := (s.acked_nextLayer p).trans alive
  have outcome := s.handleAck_outcome p
  generalize s.handleAck p = result at outcome ⊢
  obtain ⟨_, _, _, _, _, _, _, _, _, _, _, _, _, _, _, _, _, _, _, _, after⟩ := s.acked_eq p
  have una : (s.acked p).cb.sndUna = s.cb.sndUna := by rw [after]
  cases outcome with
  | old => exact tallied
  | beyond => exact tallied.same rfl fun _ off => off
  | duplicate _ same => exact ackDuplicate_tallied acked met order layer (same.trans una.symm)
  | new => exact ackNewData_tallied acked _

theorem handleFin_tallied (tallied : s.Tallied) : s.handleFin.Tallied := by
  have state : s.cb.state = .listen ∨ s.cb.state = .closed ∧ s.cb.tRexmt = 0 →
      s.cb.state.finned = .listen ∨ s.cb.state.finned = .closed ∧ s.cb.tRexmt = 0 := by
    rintro (listen | ⟨closed, off⟩)
    · exact .inl (by rw [listen]; rfl)
    · exact .inr ⟨by rw [closed]; rfl, off⟩
  obtain ⟨_, _, result⟩ := s.handleFin_eq
  rw [result]
  split
  · exact ⟨tallied.ahead.imp id fun ⟨shut, where_, unlost⟩ => ⟨shut, state where_, unlost⟩,
      tallied.calls⟩
  · exact ⟨tallied.ahead.imp id fun ⟨shut, where_, unlost⟩ => ⟨shut, state where_, unlost⟩,
      tallied.calls⟩

theorem inputSegment_tallied (tallied : s.Tallied) (o : s.InOrder) (alive : s.sk.nextLayer = true)
    (here : s.cb.state ≠ .closed) (covered : hasAck p.hdr.flags = true →
      ∀ block ∈ p.options.1, ¬ seqLt block.2 s.cb.sndUna) : (s.inputSegment p).Tallied := by
  have stored : (s.stored p).Tallied ∧ (s.stored p).InOrder ∧ (s.stored p).sk.nextLayer = true ∧
      (s.stored p).cb.state ≠ .closed ∧ (s.stored p).cb.sndUna = s.cb.sndUna := by
    obtain ⟨_, _, _, _, _, _, result⟩ := s.stored_eq p
    rw [result]
    exact ⟨tallied.same rfl fun _ off => off, o.same rfl rfl rfl, alive, here, rfl⟩
  obtain ⟨stored, order, alive, here, una⟩ := stored
  rw [← una] at covered
  rw [inputSegment_eq]
  split
  · next isAck =>
    have acked := handleAck_tallied stored order alive here (covered isAck)
    split
    · exact handleFin_tallied acked
    · exact acked
  · split
    · exact handleFin_tallied stored
    · exact stored

theorem ackPredicted_tallied (tallied : s.Tallied) (ack : Word) : (s.ackPredicted ack).Tallied := by
  have dropped := dropAckedData_tallied tallied ack
  unfold ackPredicted
  dsimp only
  generalize s.dropAckedData ack = x at dropped ⊢
  obtain ⟨dropped, ahead⟩ := dropped
  exact (resetRexmtTimer_tallied dropped fun _ => ahead).same rfl fun _ off => off

theorem timed_tallied (tallied : s.Tallied) (p : UdtPacket) : (s.timed p).Tallied := by
  obtain ⟨_, _, _, _, _, _, result⟩ := s.timed_eq p
  rw [result]
  exact tallied.same rfl fun _ off => off

theorem entered_tallied (tallied : s.Tallied) (p : UdtPacket) : (s.entered p).Tallied := by
  obtain ⟨_, _, _, _, _, _, _, result⟩ := s.entered_eq p
  rw [result]
  exact tallied.same rfl fun _ off => off

theorem synced_tallied (tallied : s.Tallied) (here : s.cb.state ≠ .closed) (p : UdtPacket) :
    (s.synced p).Tallied ∧ (s.synced p).cb.state ≠ .closed ∧ (s.synced p).cb.sndUna =
      if s.cb.state = .listen ∧ hasSyn p.hdr.flags = true then sIss else s.cb.sndUna := by
  have entered := entered_tallied tallied p
  obtain ⟨_, _, _, _, _, _, _, before⟩ := s.entered_eq p
  have state : (s.entered p).cb.state = s.cb.state := by rw [before]
  have una : (s.entered p).cb.sndUna = s.cb.sndUna := by rw [before]
  unfold synced
  split
  · next isSyn =>
    refine ⟨handleSyn_tallied entered (state.symm ▸ here) p, ?_⟩
    obtain ⟨_, _, _, result⟩ := (s.entered p).handleSyn_eq p
    rw [result, state]
    split
    · refine ⟨TcpState.noConfusion, ?_⟩
      by_cases listen : s.cb.state = .listen
      · simp [listen, isSyn, UdtCb.tcpSendseqinit]
      · simp [listen, una]
    · next past =>
      refine ⟨state.symm ▸ here, ?_⟩
      rw [if_neg fun both => past (.inl both.1)]
      exact una
  · next plain =>
    refine ⟨entered, state.symm ▸ here, ?_⟩
    rw [if_neg fun both => plain both.2]
    exact una

theorem inputChecked_tallied (tallied : s.Tallied) (o : s.InOrder) (alive : s.sk.nextLayer = true)
    (covered : s.Covered p) : (s.inputChecked p).Tallied := by
  have timed := timed_tallied tallied p
  have entered := entered_tallied tallied p
  have order := entered_inOrder o p
  have same : (s.entered p).cb.sndUna = s.cb.sndUna ∧ (s.entered p).cb.sndMax = s.cb.sndMax ∧
      (s.entered p).cb.state = s.cb.state := by
    obtain ⟨_, _, _, _, _, _, _, result⟩ := s.entered_eq p
    rw [result]
    exact ⟨rfl, rfl, rfl⟩
  have outcome := s.inputChecked_outcome p
  generalize s.inputChecked p = x at outcome ⊢
  have open_ : s.admits p.hdr = true → s.cb.state ≠ .closed :=
    fun admitted => ((s.admits_iff p.hdr).mp admitted).1
  cases outcome with
  | ignored => exact timed
  | hangup => exact timed.same rfl fun _ off => off
  | outside => exact entered.same rfl fun _ off => off
  | ackPredicted admitted state isAck bare above sent =>
      have acked := ackPredicted_tallied entered p.hdr.ack
      have order := ackPredicted_inOrder order (same.1.symm ▸ above) (same.2.1.symm ▸ sent)
        (same.2.2.trans state)
      unfold outputData
      split
      · exact output_tallied acked order
      · exact acked
  | storePredicted => exact entered.same rfl fun _ off => off
  | synRefused admitted => exact (synced_tallied tallied (open_ admitted) p).1
  | segment admitted =>
      obtain ⟨synced, here, una⟩ := synced_tallied tallied (open_ admitted) p
      obtain ⟨order, layer⟩ := synced_inOrder o alive p
      obtain ⟨_, flags, options, _⟩ := p.counted_same
      refine inputSegment_tallied synced order layer here fun isAck => ?_
      rw [una, options]
      exact covered (flags ▸ isAck)

theorem commitOutput_tallied (tallied : s.Tallied) (o : s.InOrder) : s.commitOutput.Tallied := by
  unfold commitOutput
  split
  · exact output_tallied tallied o
  · exact tallied

theorem commitReset_tallied (tallied : s.Tallied) : s.commitReset.Tallied := by
  unfold commitReset
  split
  · exact tallied.same rfl fun _ off => off
  · exact tallied

theorem commitRead_tallied (tallied : s.Tallied) (o : s.InOrder) : s.commitRead.Tallied := by
  have read : s.notifyReadable.Tallied := by
    unfold notifyReadable onReadable
    split
    · split
      · exact recvData_tallied tallied o
      · exact tallied
    · exact tallied
  unfold commitRead
  split
  · exact read.same rfl fun _ off => off
  · exact tallied

theorem commitWrite_tallied (tallied : s.Tallied) (o : s.InOrder) : s.commitWrite.Tallied := by
  unfold commitWrite
  split
  · exact (onWritable_tallied tallied o).same rfl fun _ off => off
  · exact tallied

theorem commitDrop_tallied (tallied : s.Tallied) (o : s.InOrder) : s.commitDrop.Tallied := by
  unfold commitDrop
  split
  · exact (drop_tallied tallied o s.cb.lastError).same rfl fun _ off => off
  · exact tallied

theorem commitNotifies_tallied (tallied : s.Tallied) (o : s.InOrder) : s.commitNotifies.Tallied := by
  have sent := commitOutput_tallied tallied o
  have reset := commitReset_inOrder (commitOutput_inOrder o)
  have read := commitRead_tallied (commitReset_tallied sent) reset
  have order := commitRead_inOrder reset
  exact commitDrop_tallied (commitWrite_tallied read order) (commitWrite_inOrder order)

theorem doReceive_tallied (tallied : s.Tallied) : s.doReceive.Tallied := by
  obtain ⟨_, _, _, result⟩ := s.doReceive_eq
  rw [result]
  exact tallied.same rfl fun _ off => off

theorem received_tallied (tallied : s.Tallied) : s.received.Tallied := by
  unfold Endpoint.received pktConsumed
  cases s.cb.flags.packetConsumed
  · exact doReceive_tallied tallied
  · exact doReceive_tallied (s := { s with cb.flags.packetConsumed := false, sk.rcvPkt := none })
      (tallied.same rfl fun _ off => off)

theorem handleReceive_tallied (tallied : s.Tallied) (o : s.InOrder) (hdr : UdtHdr) (mem : List UChar)
    (n : Nat) (covered : ∀ p, s.arriving (.packet hdr mem n) = some p → s.Covered p) :
    (s.handleReceive hdr mem n).Tallied := by
  rcases s.handleReceive_cases hdr mem n with (same | same) |
    ⟨buffer, alive, waits, good, result⟩
  · rw [same]
    exact tallied
  · rw [same]
    exact doReceive_tallied tallied
  · have here := covered (hostPacket hdr mem buffer) (by simp [arriving, waits, alive, good])
    rw [result]
    exact received_tallied (commitNotifies_tallied (inputChecked_tallied tallied o alive here)
      (inputChecked_inOrder o alive _))

end Packet

section Timers

theorem slowRexmt_tallied (tallied : s.Tallied) (o : s.InOrder) : s.slowRexmt.Tallied := by
  unfold slowRexmt
  split
  · exact tallied
  next running =>
  have ahead := tallied.ahead.running o running
  have ticked : Tallied { s with cb.tRexmt := s.cb.tRexmt - 1 } := ⟨.inl ahead, tallied.calls⟩
  dsimp only
  split
  · unfold rexmtExpired
    dsimp only
    split
    · refine drop_tallied ?_ ?_ _
      · exact ⟨.inl ahead, tallied.calls⟩
      refine ⟨o.numbered.keep rfl rfl id fun o => ?_, o.shut, o.logged⟩
      refine ⟨o.fresh, fun listen => absurd (o.quiet listen).1 running, fun handshake => ?_⟩
      exact ⟨(o.spoken handshake).1, fun _ => (o.spoken handshake).2 running⟩
    · change s.rexmtBegun.output.Tallied
      obtain ⟨_, _, _, _, _, _, _, _, _, _, result⟩ := s.rexmtBegun_eq
      rw [result]
      exact output_tallied_of ⟨.inl (seqLt_irrefl _), tallied.calls⟩ fun _ _ => ⟨rfl, rfl⟩
  · exact ticked

theorem slowPersist_tallied (tallied : s.Tallied) (o : s.InOrder) : s.slowPersist.Tallied := by
  unfold slowPersist
  split
  · exact tallied
  next running =>
  dsimp only
  split
  · change Tallied { s.persistBegun.output with cb.force := false }
    have begun : s.persistBegun.Tallied := by
      obtain ⟨_, _, _, _, _, result, _⟩ := s.persistBegun_eq
      rw [result]
      exact tallied.same rfl fun _ off => off
    exact (output_tallied begun (persistBegun_inOrder o running)).same rfl fun _ off => off
  · exact tallied.same rfl fun _ off => off

theorem slowKeep_tallied (tallied : s.Tallied) (o : s.InOrder) : s.slowKeep.Tallied := by
  unfold slowKeep
  split
  · exact tallied
  have ticked : Tallied { s with cb.tKeep := s.cb.tKeep - 1 } := tallied.same rfl fun _ off => off
  have order : InOrder { s with cb.tKeep := s.cb.tKeep - 1 } := o.same rfl rfl rfl
  dsimp only
  split
  · unfold keepExpired
    split
    · exact drop_tallied ticked order _
    split
    · split
      · exact drop_tallied ticked order _
      · exact tallied.same rfl fun _ off => off
    · exact tallied.same rfl fun _ off => off
  · exact ticked

theorem slow2msl_tallied (tallied : s.Tallied) (o : s.InOrder) : s.slow2msl.Tallied := by
  unfold slow2msl
  split
  · exact tallied
  have ticked : Tallied { s with cb.t2msl := s.cb.t2msl - 1 } := tallied.same rfl fun _ off => off
  dsimp only
  split
  · exact drop_tallied ticked (o.same rfl rfl rfl) _
  · exact ticked

theorem handleSlowTimo_tallied (tallied : s.Tallied) (o : s.InOrder) : s.handleSlowTimo.Tallied := by
  have rexmt := slowRexmt_inOrder o
  have persist := slowPersist_tallied (slowRexmt_tallied tallied o) rexmt
  have order := slowPersist_inOrder rexmt
  have timers := slow2msl_tallied (slowKeep_tallied persist order) (slowKeep_inOrder order)
  unfold handleSlowTimo
  generalize s.slowRexmt.slowPersist.slowKeep.slow2msl = x at timers ⊢
  exact timers.same rfl fun _ off => off

end Timers

/-- The numbers stay in order, and no packet takes `m_snd_fack` behind `m_snd_una`. -/
def Measured (s : Endpoint) (e : Event) : Prop :=
  s.Regular e ∧ ∀ p ∈ s.arriving e, s.Covered p

instance (s : Endpoint) (e : Event) : Decidable (s.Measured e) :=
  inferInstanceAs (Decidable (_ ∧ _))

section Events

theorem asyncConnect_tallied (tallied : s.Tallied) (o : s.InOrder) (h : Nat)
    (regular : s.Regular (.connect h)) : (s.asyncConnect h).Tallied := by
  unfold asyncConnect
  split
  case isFalse => exact tallied
  case isTrue alive =>
    obtain ⟨pkt, next, _, received⟩ := ({ s with sk.connectHandler := some h } : Endpoint).doReceive_eq
    unfold connect
    rw [received]
    dsimp only
    split
    case isTrue => exact tallied.same rfl fun _ off => off
    case isFalse closed =>
      have unused := regular (not_not.mp closed)
      have retrans := ((o.numbered alive).2 unused.connected).fresh.retrans
      exact output_tallied_of ⟨.inl (seqLt_irrefl _), tallied.calls⟩ fun _ _ => ⟨rfl, retrans⟩

theorem asyncAccept_tallied (tallied : s.Tallied) (h : Nat) : (s.asyncAccept h).Tallied := by
  unfold asyncAccept
  split
  case isFalse => exact tallied
  case isTrue alive =>
    obtain ⟨pkt, next, _, received⟩ := ({ s with sk.acceptHandler := some h } : Endpoint).doReceive_eq
    unfold accept
    rw [received]
    dsimp only
    split
    case isTrue => exact tallied.same rfl fun _ off => off
    case isFalse =>
      exact ⟨tallied.ahead.imp id fun ⟨shut, _, unlost⟩ => ⟨shut, .inl rfl, unlost⟩, tallied.calls⟩

theorem asyncSend_tallied (tallied : s.Tallied) (o : s.InOrder) (op : SendOperation)
    (regular : s.Regular (.send op)) : (s.asyncSend op).Tallied := by
  have queued : (s.queueSend op).Tallied := tallied.same rfl fun _ off => off
  have consumed := consumePendingData_tallied queued
  have order : (s.queueSend op).consumePendingData.2.InOrder :=
    Output.consume.inOrder (queueSend_inOrder o op regular)
  rw [asyncSend_eq]
  split
  · exact tallied
  split
  · exact tallied.same rfl fun _ off => off
  split
  · exact output_tallied consumed order
  · exact consumed

theorem asyncReceive_tallied (tallied : s.Tallied) (o : s.InOrder) (op : RecvOperation) :
    (s.asyncReceive op).Tallied := by
  unfold asyncReceive
  split
  · exact tallied
  split
  · exact tallied.same rfl fun _ off => off
  · exact recvData_tallied (tallied.same rfl fun _ off => off) (o.same rfl rfl rfl)

theorem asyncShutdown_tallied (tallied : s.Tallied) (o : s.InOrder) (h : Nat) :
    (s.asyncShutdown h).Tallied := by
  have closing : (s.closing h).Tallied := by
    rw [closing_eq]
    refine ⟨tallied.ahead.imp id fun ⟨shut, where_, unlost⟩ => ⟨shut, ?_, unlost⟩, tallied.calls⟩
    rcases where_ with state | ⟨state, off⟩
    · exact .inl (by simp [state])
    · exact .inr ⟨by simp [state], off⟩
  by_cases alive : s.sk.nextLayer = true
  · rcases s.asyncShutdown_cases h alive with result | result <;> rw [result]
    · exact closing
    · exact output_tallied closing (closing_inOrder o h)
  · rw [asyncShutdown, if_neg alive]
    exact tallied

theorem handleDelayRecvOperation_tallied (tallied : s.Tallied) (aborted : Bool) :
    (s.handleDelayRecvOperation aborted).Tallied := by
  unfold handleDelayRecvOperation
  split
  · exact tallied
  dsimp only
  split
  · exact tallied.same rfl fun _ off => off
  · obtain ⟨_, _, _, _, result⟩ := delayedLoop_spec { s with sk.delayWaits := s.sk.delayWaits - 1 }
      s.sk.recvOps
    rw [result]
    exact tallied.same rfl fun _ off => off

theorem step_tallied (tallied : s.Tallied) (o : s.InOrder) (e : Event) (measured : s.Measured e) :
    (s.step e).Tallied := by
  obtain ⟨regular, covered⟩ := measured
  cases e with
  | connect h => exact asyncConnect_tallied tallied o h regular
  | accept h => exact asyncAccept_tallied tallied h
  | packet hdr mem n => exact handleReceive_tallied tallied o hdr mem n covered
  | slowTimo =>
      change s.slowTimer.Tallied
      unfold slowTimer
      split
      · exact handleSlowTimo_tallied tallied o
      · exact tallied
  | fastTimo =>
      change s.fastTimer.Tallied
      unfold fastTimer handleFastTimo
      split
      · split
        · exact output_tallied (tallied.same rfl fun _ off => off) (o.same rfl rfl rfl)
        · exact tallied
      · exact tallied
  | send op => exact asyncSend_tallied tallied o op regular
  | receive op => exact asyncReceive_tallied tallied o op
  | shutdown h => exact asyncShutdown_tallied tallied o h
  | delayTimer aborted => exact handleDelayRecvOperation_tallied tallied aborted
  | receiveError value =>
      change (s.handleReceiveError value).Tallied
      rw [handleReceiveError_eq]
      split
      · have released : Tallied { s with sk.rcvPkt := none } := tallied.same rfl fun _ off => off
        exact onDisconnected_tallied released (o.same rfl rfl rfl)
      · exact tallied
  | mtu =>
      change s.handleMtu.Tallied
      unfold handleMtu
      split
      · exact ⟨tallied.ahead, tallied.calls⟩
      · exact tallied
  | setKeepalive on => exact tallied.same rfl fun _ off => off
  | setSndBuf v => exact tallied.same rfl fun _ off => off
  | setRcvBuf v => exact tallied.same rfl fun _ off => off
  | cancel => exact tallied.same rfl fun _ off => off
  | close =>
      change s.close.Tallied
      unfold close
      split
      · exact ⟨tallied.ahead.imp id fun ⟨shut, _, unlost⟩ => ⟨shut, .inr ⟨rfl, rfl⟩, unlost⟩,
          tallied.calls⟩
      · exact tallied

theorem init_tallied (fack sndSeq rcvSeq : Word) (env : Env) :
    (init fack sndSeq rcvSeq env).Tallied :=
  ⟨.inr ⟨rfl, .inr ⟨rfl, rfl⟩, by simp [init, UdtCb.isPktLostRateIncr, UdtCb.init]⟩, by simp [init]⟩

theorem run_tallied (fack sndSeq rcvSeq : Word) (env : Env) (es : List Event)
    (measured : Trace.Meets step Measured (init fack sndSeq rcvSeq env) es) :
    ((init fack sndSeq rcvSeq env).run es).Tallied := by
  have both := measured.invariant (I := fun s => s.Tallied ∧ s.InOrder)
    ⟨init_tallied fack sndSeq rcvSeq env, init_inOrder fack sndSeq rcvSeq env⟩
    fun _ e ⟨tallied, o⟩ measured => ⟨step_tallied tallied o e measured, step_inOrder o e measured.1⟩
  exact both.1

end Events

end Endpoint
end UdtBoost
