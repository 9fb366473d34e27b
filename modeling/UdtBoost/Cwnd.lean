import UdtBoost.DupAcks
import UdtBoost.Inflight

/-! The bounds of the congestion window. Losses shrink it and acknowledgements open it within them;
only slow start, after a pause, adds what it takes to be in flight without a limit. -/
namespace UdtBoost

namespace UdtCb

variable {c : UdtCb}

/-- The window has room for eight segments of the size every socket has. It is near its limit: what
is in flight is a nonnegative `int`. -/
structure Sized (c : UdtCb) : Prop where
  maxseg : c.maxseg = sMss
  low : c.minCwnd ≤ c.sndCwnd
  near : c.sndCwnd.toNat < 2 ^ 31 + 2 ^ 16

/-- What slow start would set the window to. -/
def restartCwnd (c : UdtCb) : Word := c.minCwnd + c.bytesInflight

theorem minCwnd_sMss (maxseg : c.maxseg = sMss) : c.minCwnd.toNat = 8 * sMss.toNat := by
  unfold minCwnd
  rw [maxseg]
  rfl

theorem bytesInflight_lt (c : UdtCb) : c.bytesInflight.toNat < 2 ^ 31 := by
  unfold bytesInflight
  dsimp only
  split_ifs with negative
  · decide
  · rw [BitVec.toInt_eq_toNat_cond] at negative
    split_ifs at negative <;> omega

/-- The sum does not wrap. -/
theorem restartCwnd_toNat (maxseg : c.maxseg = sMss) :
    c.restartCwnd.toNat = c.minCwnd.toNat + c.bytesInflight.toNat := by
  have least := minCwnd_sMss maxseg
  have small := c.bytesInflight_lt
  have size : sMss.toNat < 2 ^ 10 := by decide
  unfold restartCwnd
  rw [BitVec.toNat_add, Nat.mod_eq_of_lt (by omega)]

/-- With nothing in flight slow start takes the least window. -/
theorem restartCwnd_le (maxseg : c.maxseg = sMss) (none : c.bytesInflight = 0) :
    c.restartCwnd ≤ TCP_MAXCWIN := by
  have window := restartCwnd_toNat maxseg
  have least := minCwnd_sMss maxseg
  have size : 8 * sMss.toNat ≤ TCP_MAXCWIN.toNat := by decide
  rw [none] at window
  have zero : (0 : Word).toNat = 0 := rfl
  rw [BitVec.le_def]
  omega

theorem Sized.slowStart (sized : c.Sized) : c.slowStart.Sized := by
  unfold UdtCb.slowStart
  split
  · have window := restartCwnd_toNat sized.maxseg
    have least := minCwnd_sMss sized.maxseg
    have small := c.bytesInflight_lt
    have size : sMss.toNat < 2 ^ 10 := by decide
    unfold restartCwnd at window
    refine ⟨sized.maxseg, ?_, ?_⟩
    · change c.minCwnd ≤ c.minCwnd + c.bytesInflight
      rw [BitVec.le_def]
      omega
    · change (c.minCwnd + c.bytesInflight).toNat < _
      omega
  · exact sized

/-- A window that grows a little, up to the limit. -/
theorem Sized.grown (sized : c.Sized) {incr : Word} (small : incr.toNat < 2 ^ 20) :
    let cwnd := if c.sndCwnd + incr < TCP_MAXCWIN then c.sndCwnd + incr else TCP_MAXCWIN
    c.minCwnd ≤ cwnd ∧ cwnd ≤ TCP_MAXCWIN := by
  have least := minCwnd_sMss sized.maxseg
  have size : 8 * sMss.toNat ≤ TCP_MAXCWIN.toNat := by decide
  have low := BitVec.le_def.mp sized.low
  have near := sized.near
  have sum : (c.sndCwnd + incr).toNat = c.sndCwnd.toNat + incr.toNat := by
    rw [BitVec.toNat_add, Nat.mod_eq_of_lt (by omega)]
  dsimp only
  split_ifs with below
  · simp only [BitVec.lt_def, BitVec.le_def] at below ⊢
    omega
  · simp only [BitVec.le_def]
    omega

/-- An acknowledgement opens the window, up to its limit. -/
theorem Sized.incrSndCwnd (sized : c.Sized) :
    c.incrSndCwnd.Sized ∧ c.incrSndCwnd.sndCwnd ≤ TCP_MAXCWIN := by
  have limit : TCP_MAXCWIN.toNat < 2 ^ 16 := by decide
  have segment : (sMss.setWidth 32 * sMss.setWidth 32).toNat < 2 ^ 20 := by decide
  have step : (if c.isPktLostRateIncr then
      let incr := c.maxseg.setWidth 32 * c.maxseg.setWidth 32 / c.sndCwnd
      if incr = 0 then 1 else incr
    else c.maxseg.setWidth 32 : Word).toNat < 2 ^ 20 := by
    rw [sized.maxseg]
    dsimp only
    split_ifs
    · decide
    · rw [BitVec.toNat_udiv]
      exact (Nat.div_le_self _ _).trans_lt segment
    · decide
  obtain ⟨low, high⟩ := sized.grown step
  refine ⟨⟨sized.maxseg, low, ?_⟩, high⟩
  have high : c.incrSndCwnd.sndCwnd.toNat ≤ TCP_MAXCWIN.toNat := BitVec.le_def.mp high
  omega

/-- A loss shrinks the window by a quarter, but not below its least size. -/
theorem Sized.decrSndCwnd (sized : c.Sized) :
    c.decrSndCwnd.Sized ∧ (c.sndCwnd ≤ TCP_MAXCWIN → c.decrSndCwnd.sndCwnd ≤ TCP_MAXCWIN) := by
  have least := minCwnd_sMss sized.maxseg
  have size : 8 * sMss.toNat ≤ TCP_MAXCWIN.toNat := by decide
  have near := sized.near
  have limit : TCP_MAXCWIN.toNat < 2 ^ 16 := by decide
  have less : (c.sndCwnd - c.sndCwnd >>> 2).toNat ≤ c.sndCwnd.toNat := by
    have quarter : (c.sndCwnd >>> 2).toNat ≤ c.sndCwnd.toNat := by
      rw [BitVec.toNat_ushiftRight]
      exact Nat.shiftRight_le _ _
    rw [BitVec.toNat_sub_of_le (BitVec.le_def.mpr quarter)]
    exact Nat.sub_le _ _
  unfold UdtCb.decrSndCwnd
  dsimp only
  split_ifs with short
  · refine ⟨⟨sized.maxseg, BitVec.le_def.mpr le_rfl, ?_⟩, fun _ => ?_⟩
    · change c.minCwnd.toNat < _
      omega
    · simp only [BitVec.le_def]
      omega
  · refine ⟨⟨sized.maxseg, ?_, less.trans_lt near⟩, fun high => ?_⟩
    · simp only [BitVec.le_def, BitVec.lt_def] at short ⊢
      change c.minCwnd.toNat ≤ _
      omega
    · simp only [BitVec.le_def] at high ⊢
      omega

end UdtCb

/-- What the bounds speak about. -/
structure Gauge where
  maxseg : Half
  sndCwnd : Word
  calls : List OutputCall

namespace Endpoint

variable {s t u : Endpoint} {p : UdtPacket} {e : Event}

def gauge (s : Endpoint) : Gauge := ⟨s.cb.maxseg, s.cb.sndCwnd, s.calls⟩

/-- From `s` to `t` the window stays sized and, when no call of `output` up to `t` starts slowly with
anything in flight, below its limit. -/
structure Bounded (s t : Endpoint) : Prop where
  calls : s.calls <+: t.calls
  sized : s.cb.Sized → t.cb.Sized
  capped : s.cb.Sized → s.cb.sndCwnd ≤ TCP_MAXCWIN → (∀ k ∈ t.calls, k.Drained) →
    t.cb.sndCwnd ≤ TCP_MAXCWIN

namespace Bounded

theorem refl (s : Endpoint) : Bounded s s := ⟨List.prefix_rfl, id, fun _ capped _ => capped⟩

theorem trans (first : Bounded s t) (second : Bounded t u) : Bounded s u where
  calls := first.calls.trans second.calls
  sized := second.sized ∘ first.sized
  capped := by
    intro sized capped drained
    refine second.capped (first.sized sized) (first.capped sized capped ?_) drained
    exact fun k member => drained k (second.calls.subset member)

theorem of_eq (same : t.gauge = s.gauge) : Bounded s t := by
  obtain ⟨maxseg, cwnd, calls⟩ := Gauge.mk.inj same
  refine ⟨calls ▸ List.prefix_rfl, fun sized => ⟨?_, ?_, ?_⟩, fun _ capped _ => ?_⟩
  · exact maxseg.trans sized.maxseg
  · unfold UdtCb.minCwnd
    rw [maxseg, cwnd]
    exact sized.low
  · rw [cwnd]
    exact sized.near
  · rwa [cwnd]

end Bounded

section Output

theorem outputLoop_gauge (clamp : Nat) (s : Endpoint) : (s.outputLoop clamp).2.gauge = s.gauge :=
  congrArg (fun v : Standing => Gauge.mk v.maxseg v.sndCwnd v.calls) (outputLoop_standing clamp s)

theorem outputIdle_sized (sized : s.cb.Sized) : s.outputIdle.cb.Sized := by
  unfold outputIdle
  split
  · exact sized.slowStart
  · exact sized

theorem outputIdle_capped (sized : s.cb.Sized) (capped : s.cb.sndCwnd ≤ TCP_MAXCWIN)
    {sent : List Transmission} {after : Conn}
    (drained : OutputCall.Drained ⟨s.toConn, sent, after⟩) :
    s.outputIdle.cb.sndCwnd ≤ TCP_MAXCWIN := by
  unfold outputIdle
  split
  · next idle =>
    unfold UdtCb.slowStart
    split
    · next faster =>
      exact UdtCb.restartCwnd_le sized.maxseg (drained ⟨idle.1, idle.2, faster⟩)
    · exact capped
  · exact capped

theorem outputIdle_calls (s : Endpoint) : s.outputIdle.calls = s.calls := by
  unfold outputIdle
  split <;> rfl

/-- `output` starts slowly or leaves the window as it is, and logs the state it was called in. -/
theorem output_bounded (s : Endpoint) : Bounded s s.output := by
  unfold output
  split
  · exact .refl s
  have loop := outputLoop_gauge sendPacketsClamp s.outputIdle
  generalize s.outputIdle.outputLoop sendPacketsClamp = result at loop ⊢
  obtain ⟨sent, x⟩ := result
  have passes : Bounded s.outputIdle x := .of_eq loop
  have calls : x.calls = s.calls := (congrArg Gauge.calls loop).trans s.outputIdle_calls
  refine ⟨?_, fun sized => passes.sized (outputIdle_sized sized), fun sized capped drained => ?_⟩
  · change s.calls <+: x.calls ++ _
    rw [calls]
    exact List.prefix_append _ _
  · have logged : OutputCall.Drained ⟨s.toConn, sent, x.toConn⟩ := drained _ (by simp)
    have earlier : ∀ k ∈ x.calls, k.Drained := fun k member =>
      drained k (List.mem_append_left _ member)
    exact passes.capped (outputIdle_sized sized) (outputIdle_capped sized capped logged) earlier

/-- A call of `output` from a state with the same window. -/
theorem output_from (same : t.gauge = s.gauge) : Bounded s t.output :=
  (Bounded.of_eq same).trans t.output_bounded

theorem recvData_bounded (s : Endpoint) : Bounded s s.recvData := by
  unfold recvData
  split
  · exact .refl s
  obtain ⟨_, _, _, _, _, _, read⟩ := s.recvDataLoop_spec s.sk.recvOps
  have read : (s.recvDataLoop s.sk.recvOps).2.gauge = s.gauge := by rw [read]; rfl
  generalize s.recvDataLoop s.sk.recvOps = result at read ⊢
  obtain ⟨output, x⟩ := result
  dsimp only
  split
  · exact output_from read
  · exact .of_eq read

theorem onWritable_bounded (s : Endpoint) : Bounded s s.onWritable := by
  unfold onWritable
  split
  · obtain ⟨_, _, _, _, _, consumed⟩ := s.consumePendingData_spec
    have consumed : s.consumePendingData.2.gauge = s.gauge := by rw [consumed]; rfl
    generalize s.consumePendingData = result at consumed ⊢
    obtain ⟨n, x⟩ := result
    dsimp only
    split
    · exact output_from consumed
    · exact .of_eq consumed
  · exact .refl s

theorem onDisconnected_bounded (s : Endpoint) : Bounded s s.onDisconnected := by
  unfold onDisconnected
  split
  · dsimp only
    rw [notifySends_eq]
    have read := recvData_bounded
      { s with posted := s.posted ++ s.sk.sendOps.map (.sent · .disconnected 0) }
    generalize recvData _ = x at read ⊢
    have start : Bounded s { s with posted := s.posted ++ s.sk.sendOps.map (.sent · .disconnected 0) } :=
      .of_eq rfl
    rw [postHandlers_eq]
    exact (start.trans read).trans (.of_eq rfl)
  · exact .refl s

theorem drop_bounded (s : Endpoint) (e : UdtError) : Bounded s (s.drop e) := by
  have failed : (if e ≠ .succeed then { s with cb.lastError := e } else s : Endpoint).gauge =
      s.gauge := by
    split <;> rfl
  unfold drop
  dsimp only
  generalize (if e ≠ .succeed then { s with cb.lastError := e } else s : Endpoint) = x at failed ⊢
  exact ((Bounded.of_eq failed).trans x.onDisconnected_bounded).trans (.of_eq rfl)

theorem drop_from (same : t.gauge = s.gauge) (e : UdtError) : Bounded s (t.drop e) :=
  (Bounded.of_eq same).trans (t.drop_bounded e)

end Output

section Packet

theorem timed_gauge (s : Endpoint) (p : UdtPacket) : (s.timed p).gauge = s.gauge := by
  obtain ⟨_, _, _, _, _, _, result⟩ := s.timed_eq p
  rw [result]
  rfl

theorem entered_gauge (s : Endpoint) (p : UdtPacket) : (s.entered p).gauge = s.gauge :=
  s.timed_gauge p

theorem synced_gauge (s : Endpoint) (p : UdtPacket) : (s.synced p).gauge = s.gauge := by
  rw [← s.entered_gauge p]
  unfold synced
  split
  · obtain ⟨_, _, _, result⟩ := (s.entered p).handleSyn_eq p
    rw [result]
    split
    · split <;> rfl
    · rfl
  · rfl

theorem stored_gauge (s : Endpoint) (p : UdtPacket) : (s.stored p).gauge = s.gauge := by
  obtain ⟨_, _, _, _, _, _, result⟩ := s.stored_eq p
  rw [result]
  rfl

theorem acked_gauge (s : Endpoint) (p : UdtPacket) : (s.acked p).gauge = s.gauge := by
  obtain ⟨_, _, _, _, _, _, _, _, _, _, _, _, _, _, _, _, _, _, _, _, result⟩ := s.acked_eq p
  rw [result]
  rfl

theorem handlePacketLost_bounded (s : Endpoint) : Bounded s s.handlePacketLost := by
  unfold handlePacketLost
  dsimp only
  split
  · have stamped (sized : s.cb.Sized) (first second third : Word) : UdtCb.Sized
        { s.cb with tstampFirst := first, tstampSecond := second, tstampThird := third } :=
      ⟨sized.maxseg, sized.low, sized.near⟩
    refine ⟨List.prefix_rfl, fun sized => ?_, fun sized capped _ => ?_⟩
    · exact (stamped sized _ _ _).decrSndCwnd.1
    · exact (stamped sized _ _ _).decrSndCwnd.2 capped
  · exact .of_eq rfl

/-- The window that `do_fast_rexmt` opens for one segment does not outlive the call. -/
theorem doFastRexmt_sndCwnd (s : Endpoint) (ack : Word) :
    (s.doFastRexmt ack).cb.sndCwnd = s.handlePacketLost.cb.sndCwnd := rfl

theorem doFastRexmt_bounded (s : Endpoint) (ack : Word) : Bounded s (s.doFastRexmt ack) := by
  obtain ⟨_, _, _, _, _, _, _, _, begun, _⟩ := s.beginFastRexmt_eq ack
  have calls : (s.handlePacketLost.beginFastRexmt ack).calls = s.calls := by rw [begun]
  have maxseg : (s.doFastRexmt ack).cb.maxseg = s.cb.maxseg :=
    congrArg Steady.maxseg (s.doFastRexmt_steady ack)
  have lost := s.handlePacketLost_bounded
  have same : s.handlePacketLost.calls = s.calls := by
    obtain ⟨_, _, _, _, _, result⟩ := s.handlePacketLost_eq
    rw [result]
  have sent := (s.handlePacketLost.beginFastRexmt ack).output_bounded.calls
  rw [calls] at sent
  refine ⟨sent, fun sized => ?_, fun sized capped drained => ?_⟩
  · have after := lost.sized sized
    refine ⟨maxseg.trans sized.maxseg, ?_, after.near⟩
    have low := after.low
    unfold UdtCb.minCwnd at low ⊢
    rw [after.maxseg] at low
    rwa [maxseg, sized.maxseg]
  · refine lost.capped sized capped fun k member => drained k ?_
    rw [same] at member
    exact sent.subset member

theorem resetRexmtTimer_gauge (s : Endpoint) :
    ({ s with cb := s.cb.resetRexmtTimer } : Endpoint).gauge = s.gauge := by
  obtain ⟨_, _, result⟩ := resetRexmtTimer_eq s.cb
  rw [result]
  rfl

theorem ackDuplicate_bounded (s : Endpoint) (ti : UdtHdr) : Bounded s (s.ackDuplicate ti).2 := by
  rw [ackDuplicate]
  dsimp only
  split
  · obtain ⟨_, _, result⟩ := s.ackWindow_eq (ti.win.setWidth 32)
    exact .of_eq ((congrArg gauge result).trans rfl)
  split
  · exact .of_eq (resetRexmtTimer_gauge { s with cb.dupacks := 0 })
  split
  · have counted : Bounded s { s with cb.dupacks := s.cb.dupacks + 1, cb.rtt := 0 } := .of_eq rfl
    exact counted.trans (doFastRexmt_bounded _ _)
  split
  · exact .of_eq rfl
  · exact .of_eq (resetRexmtTimer_gauge { s with cb.dupacks := s.cb.dupacks + 1 })

theorem ackWindow_gauge (s : Endpoint) (win : Word) : (s.ackWindow win).gauge = s.gauge := by
  obtain ⟨_, _, result⟩ := s.ackWindow_eq win
  rw [result]
  rfl

theorem dropAckedData_gauge (s : Endpoint) (ack : Word) : (s.dropAckedData ack).gauge = s.gauge := by
  obtain ⟨gone, rest, _, _, _, result⟩ := s.dropAckedData_spec ack
  obtain ⟨_, una⟩ := updateSndUna_eq
    { s.cb with retransData := gone.foldl retransLeft s.cb.retransData } ack
  rw [result, una]
  rfl

/-- The state in which `handle_ack` has opened the window for new data. -/
def windowOpened (s : Endpoint) : Endpoint :=
  { s with cb := { ({ s.cb with flags.notifyWrite := true } : UdtCb).incrSndCwnd with dupacks := 0 } }

theorem windowOpened_bounded (s : Endpoint) : Bounded s s.windowOpened := by
  have same (sized : s.cb.Sized) : UdtCb.Sized { s.cb with flags.notifyWrite := true } :=
    ⟨sized.maxseg, sized.low, sized.near⟩
  refine ⟨List.prefix_rfl, fun sized => ?_, fun sized _ _ => ?_⟩
  · obtain ⟨maxseg, low, near⟩ := (same sized).incrSndCwnd.1
    exact ⟨maxseg, low, near⟩
  · exact (same sized).incrSndCwnd.2

theorem ackNewData_bounded (s : Endpoint) (ti : UdtHdr) : Bounded s (s.ackNewData ti) := by
  have steps : s.ackNewData ti = (s.windowOpened.dropAckedData ti.ack).ackWindow
      (ti.win.setWidth 32) := rfl
  rw [steps]
  exact s.windowOpened_bounded.trans (.of_eq ((ackWindow_gauge _ _).trans (dropAckedData_gauge _ _)))

theorem handleAck_bounded (s : Endpoint) (p : UdtPacket) : Bounded s (s.handleAck p).2 := by
  have acked : Bounded s (s.acked p) := .of_eq (s.acked_gauge p)
  have outcome := s.handleAck_outcome p
  generalize s.handleAck p = result at outcome ⊢
  cases outcome with
  | old => exact .refl s
  | beyond => exact .of_eq rfl
  | duplicate => exact acked.trans (ackDuplicate_bounded _ _)
  | new => exact acked.trans (ackNewData_bounded _ _)

theorem handleFin_bounded (s : Endpoint) : Bounded s s.handleFin := by
  obtain ⟨_, _, result⟩ := s.handleFin_eq
  refine .of_eq ?_
  rw [result]
  split <;> rfl

theorem inputSegment_bounded (s : Endpoint) (p : UdtPacket) : Bounded s (s.inputSegment p) := by
  have stored : Bounded s (s.stored p) := .of_eq (s.stored_gauge p)
  have acked := stored.trans ((s.stored p).handleAck_bounded p)
  rw [inputSegment_eq]
  split
  · split
    · exact acked.trans (handleFin_bounded _)
    · exact acked
  · split
    · exact stored.trans (handleFin_bounded _)
    · exact stored

theorem inputChecked_bounded (s : Endpoint) (p : UdtPacket) : Bounded s (s.inputChecked p) := by
  have timed : Bounded s (s.timed p) := .of_eq (s.timed_gauge p)
  have entered : Bounded s (s.entered p) := .of_eq (s.entered_gauge p)
  have synced : Bounded s (s.synced p) := .of_eq (s.synced_gauge p)
  have outcome := s.inputChecked_outcome p
  generalize s.inputChecked p = x at outcome ⊢
  cases outcome with
  | ignored => exact timed
  | hangup => exact timed.trans (.of_eq rfl)
  | outside => exact entered.trans (.of_eq rfl)
  | ackPredicted =>
    obtain ⟨_, _, _, _, _, _, _, _, result⟩ := (s.entered p).ackPredicted_eq p.hdr.ack
    have acked : Bounded s ((s.entered p).ackPredicted p.hdr.ack) :=
      entered.trans (.of_eq (by rw [result]; rfl))
    unfold outputData
    split
    · exact acked.trans (output_bounded _)
    · exact acked
  | storePredicted => exact entered.trans (.of_eq rfl)
  | synRefused => exact synced
  | segment => exact synced.trans (inputSegment_bounded _ _)

theorem commitNotifies_bounded (s : Endpoint) : Bounded s s.commitNotifies := by
  have output : Bounded s s.commitOutput := by
    unfold commitOutput
    split
    · exact s.output_bounded
    · exact .refl s
  have reset (x : Endpoint) : Bounded x x.commitReset := by
    unfold commitReset
    split <;> exact .of_eq rfl
  have read (x : Endpoint) : Bounded x x.commitRead := by
    have readable : Bounded x x.notifyReadable := by
      unfold notifyReadable onReadable
      split
      · split
        · exact x.recvData_bounded
        · exact .refl x
      · exact .refl x
    unfold commitRead
    split
    · exact readable.trans (.of_eq rfl)
    · exact .refl x
  have write (x : Endpoint) : Bounded x x.commitWrite := by
    unfold commitWrite
    split
    · exact x.onWritable_bounded.trans (.of_eq rfl)
    · exact .refl x
  have drop (x : Endpoint) : Bounded x x.commitDrop := by
    unfold commitDrop
    split
    · exact (x.drop_bounded _).trans (.of_eq rfl)
    · exact .refl x
  exact (((output.trans (reset _)).trans (read _)).trans (write _)).trans (drop _)

end Packet

section Events

theorem rexmtBegun_bounded (s : Endpoint) : Bounded s s.rexmtBegun := by
  have backed (x : Endpoint) : x.backoffRexmt.rewindAll.gauge = x.gauge := by
    unfold backoffRexmt
    dsimp only
    split <;> rfl
  have started : Bounded s ({ s with
      cb.tRexmt := s.cb.tRexmt - 1, cb.rxtshift := s.cb.rxtshift + 1 } :
      Endpoint).backoffRexmt.rewindAll := .of_eq (backed _)
  have lost := started.trans (handlePacketLost_bounded _)
  unfold rexmtBegun
  dsimp only at lost ⊢
  generalize handlePacketLost _ = x at lost ⊢
  exact lost.trans (.of_eq rfl)

theorem slowRexmt_bounded (s : Endpoint) : Bounded s s.slowRexmt := by
  unfold slowRexmt
  split
  · exact .refl s
  dsimp only
  split
  · unfold rexmtExpired
    dsimp only
    split
    · exact drop_from (by rfl) _
    · exact s.rexmtBegun_bounded.trans s.rexmtBegun.output_bounded
  · exact .of_eq rfl

theorem slowPersist_bounded (s : Endpoint) : Bounded s s.slowPersist := by
  unfold slowPersist
  split
  · exact .refl s
  dsimp only
  split
  · have begun : s.persistBegun.gauge = s.gauge := by
      obtain ⟨_, _, _, _, _, result, _⟩ := s.persistBegun_eq
      rw [result]
      rfl
    change Bounded s ({ s.persistBegun.output with cb.force := false } : Endpoint)
    exact (output_from begun).trans (.of_eq rfl)
  · exact .of_eq rfl

theorem slowKeep_bounded (s : Endpoint) : Bounded s s.slowKeep := by
  unfold slowKeep
  split
  · exact .refl s
  dsimp only
  split
  · unfold keepExpired
    split
    · exact drop_from (by rfl) _
    split
    · split
      · exact drop_from (by rfl) _
      · exact .of_eq rfl
    · exact .of_eq rfl
  · exact .of_eq rfl

theorem slow2msl_bounded (s : Endpoint) : Bounded s s.slow2msl := by
  unfold slow2msl
  split
  · exact .refl s
  dsimp only
  split
  · exact drop_from (by rfl) _
  · exact .of_eq rfl

theorem handleSlowTimo_bounded (s : Endpoint) : Bounded s s.handleSlowTimo := by
  have timers := ((s.slowRexmt_bounded.trans (slowPersist_bounded _)).trans
    (slowKeep_bounded _)).trans (slow2msl_bounded _)
  unfold handleSlowTimo
  generalize s.slowRexmt.slowPersist.slowKeep.slow2msl = x at timers ⊢
  exact timers.trans (.of_eq rfl)

theorem doReceive_gauge (s : Endpoint) : s.doReceive.gauge = s.gauge := by
  obtain ⟨_, _, _, result⟩ := s.doReceive_eq
  rw [result]
  rfl

theorem handleReceive_bounded (s : Endpoint) (hdr : UdtHdr) (mem : List UChar) (n : Nat) :
    Bounded s (s.handleReceive hdr mem n) := by
  rcases s.handleReceive_cases hdr mem n with (same | same) | ⟨buffer, alive, waits, good, result⟩
  · rw [same]
    exact .refl s
  · rw [same]
    exact .of_eq s.doReceive_gauge
  rw [result]
  have committed := (s.inputChecked_bounded (hostPacket hdr mem buffer)).trans
    (commitNotifies_bounded _)
  generalize (s.inputChecked (hostPacket hdr mem buffer)).commitNotifies = x at committed ⊢
  refine committed.trans (.of_eq ?_)
  unfold Endpoint.received pktConsumed
  cases x.cb.flags.packetConsumed
  · exact doReceive_gauge x
  · exact doReceive_gauge { x with cb.flags.packetConsumed := false, sk.rcvPkt := none }

theorem asyncConnect_bounded (s : Endpoint) (h : Nat) : Bounded s (s.asyncConnect h) := by
  have received := doReceive_gauge { s with sk.connectHandler := some h }
  unfold asyncConnect
  split
  · unfold connect
    split
    · exact .of_eq received
    · have started : (s.connecting h).gauge = s.gauge := by
        obtain ⟨_, _, _, result⟩ := s.connecting_eq h
        rw [result]
        rfl
      exact output_from started
  · exact .refl s

theorem asyncAccept_bounded (s : Endpoint) (h : Nat) : Bounded s (s.asyncAccept h) := by
  have received := doReceive_gauge { s with sk.acceptHandler := some h }
  unfold asyncAccept
  split
  · unfold accept
    split <;> exact .of_eq received
  · exact .refl s

theorem asyncSend_bounded (s : Endpoint) (op : SendOperation) : Bounded s (s.asyncSend op) := by
  rw [asyncSend_eq]
  split
  · exact .refl s
  split
  · exact .of_eq rfl
  obtain ⟨_, _, _, _, _, result⟩ := (s.queueSend op).consumePendingData_spec
  have consumed : (s.queueSend op).consumePendingData.2.gauge = s.gauge := by rw [result]; rfl
  split
  · exact output_from consumed
  · exact .of_eq consumed

theorem asyncReceive_bounded (s : Endpoint) (op : RecvOperation) :
    Bounded s (s.asyncReceive op) := by
  unfold asyncReceive
  split
  · exact .refl s
  split
  · exact .of_eq rfl
  · have queued : Bounded s { s with sk.recvOps := s.sk.recvOps ++ [op] } := .of_eq rfl
    exact queued.trans (recvData_bounded _)

theorem asyncShutdown_bounded (s : Endpoint) (h : Nat) : Bounded s (s.asyncShutdown h) := by
  unfold asyncShutdown
  split
  · unfold shutdown
    split
    · exact output_from rfl
    · exact output_from rfl
    · exact .of_eq rfl
  · exact .refl s

theorem handleMtu_bounded (s : Endpoint) : Bounded s s.handleMtu := by
  have sized (sized : s.cb.Sized) : s.handleMtu.cb = s.cb := by
    unfold handleMtu
    split
    · change { s.cb with maxseg := sMss } = s.cb
      rw [← sized.maxseg]
    · rfl
  have calls : s.handleMtu.calls = s.calls := by
    unfold handleMtu
    split <;> rfl
  refine ⟨calls ▸ List.prefix_rfl, fun start => (sized start).symm ▸ start, fun start capped _ => ?_⟩
  rwa [sized start]

theorem step_bounded (s : Endpoint) (e : Event) : Bounded s (s.step e) := by
  cases e with
  | packet hdr mem n => exact s.handleReceive_bounded hdr mem n
  | slowTimo =>
    rw [step, slowTimer]
    split
    · exact s.handleSlowTimo_bounded
    · exact .refl s
  | fastTimo =>
    rw [step, fastTimer]
    unfold handleFastTimo
    split
    · split
      · exact output_from rfl
      · exact .refl s
    · exact .refl s
  | connect h => exact s.asyncConnect_bounded h
  | accept h => exact s.asyncAccept_bounded h
  | send op => exact s.asyncSend_bounded op
  | receive op => exact s.asyncReceive_bounded op
  | shutdown h => exact s.asyncShutdown_bounded h
  | delayTimer aborted =>
    rw [step]
    unfold handleDelayRecvOperation
    split
    · exact .refl s
    dsimp only
    split
    · exact .of_eq rfl
    · obtain ⟨_, _, _, _, result⟩ := ({ s with sk.delayWaits := s.sk.delayWaits - 1 } :
        Endpoint).delayedLoop_spec s.sk.recvOps
      rw [result]
      exact .of_eq rfl
  | receiveError value =>
    rw [step, handleReceiveError_eq]
    split
    · have released : Bounded s { s with sk.rcvPkt := none } := .of_eq rfl
      exact released.trans (onDisconnected_bounded _)
    · exact .refl s
  | mtu => exact s.handleMtu_bounded
  | close =>
    refine .of_eq ?_
    rw [step]
    unfold Endpoint.close
    split <;> rfl
  | _ => exact .of_eq rfl

theorem run_bounded (s : Endpoint) (es : List Event) : Bounded s (s.run es) := by
  induction es generalizing s with
  | nil => exact .refl s
  | cons e es ih => exact (s.step_bounded e).trans (ih (s.step e))

theorem init_sized (fack sndSeq rcvSeq : Word) (env : Env) :
    (init fack sndSeq rcvSeq env).cb.Sized :=
  ⟨rfl, BitVec.le_def.mpr le_rfl, (by decide : (sMss.setWidth 32 <<< 3 : Word).toNat < _)⟩

theorem ackPoint_sized (sized : s.cb.Sized) (p : UdtPacket) : (s.ackPoint p).cb.Sized := by
  have same : Bounded s (s.ackPoint p) :=
    .of_eq (((acked_gauge _ _).trans (stored_gauge _ _)).trans (s.synced_gauge p))
  exact same.sized sized

/-- In the step `output` comes to `slow_start`. -/
def Restarts (s : Endpoint) (e : Event) : Prop :=
  ∃ k ∈ (s.step e).calls.drop s.calls.length, k.StartsSlowly

instance (s : Endpoint) (e : Event) : Decidable (s.Restarts e) :=
  inferInstanceAs (Decidable (∃ k ∈ _, _))

/-- The run is measured up to every step that starts slowly. -/
def RestartsMeasured (s : Endpoint) (es : List Event) : Prop :=
  ∀ fs e, fs ++ [e] <+: es → (s.run fs).Restarts e → Trace.Meets step Measured s (fs ++ [e])

theorem RestartsMeasured.of_meets {es : List Event} (measured : Trace.Meets step Measured s es) :
    s.RestartsMeasured es := by
  rintro fs e ⟨rest, rfl⟩ -
  exact (Trace.meets_append.mp measured).1

theorem RestartsMeasured.calls {fack sndSeq rcvSeq : Word} {env : Env} {es : List Event}
    (measured : (init fack sndSeq rcvSeq env).RestartsMeasured es) :
    ∀ k ∈ ((init fack sndSeq rcvSeq env).run es).calls, k.Drained := by
  induction es using List.reverseRecOn with
  | nil => simp [run, init]
  | append_singleton es e ih =>
    have earlier := ih fun fs d before => measured fs d (before.trans (List.prefix_append es [e]))
    have last : (init fack sndSeq rcvSeq env).run (es ++ [e]) =
        ((init fack sndSeq rcvSeq env).run es).step e := by simp [run]
    obtain ⟨new, split⟩ := (((init fack sndSeq rcvSeq env).run es).step_bounded e).calls
    rw [last, ← split]
    refine List.forall_mem_append.mpr ⟨earlier, fun k member slow => ?_⟩
    have restarts : ((init fack sndSeq rcvSeq env).run es).Restarts e :=
      ⟨k, by rw [← split, List.drop_left]; exact member, slow⟩
    have tallied := run_tallied fack sndSeq rcvSeq env (es ++ [e]) (measured es e List.prefix_rfl restarts)
    rw [last] at tallied
    exact tallied.calls k (split ▸ List.mem_append_right _ member) slow

/-- In every run the window has room for eight segments. The window that `incr_snd_cwnd` divides by is
not empty, and `do_fast_rexmt` leaves the one `handle_packet_lost` left. -/
theorem cwnd_low (fack sndSeq rcvSeq : Word) (env : Env) (es : List Event) :
    let s := (init fack sndSeq rcvSeq env).run es
    s.cb.maxseg = sMss ∧ 8 * s.cb.maxseg.toNat ≤ s.cb.sndCwnd.toNat ∧
      (∀ p, (s.ackPoint p).cb.sndCwnd ≠ 0) ∧
      ∀ ack, (s.doFastRexmt ack).cb.sndCwnd = s.handlePacketLost.cb.sndCwnd := by
  have steps := (init fack sndSeq rcvSeq env).run_bounded es
  have sized := steps.sized (init_sized fack sndSeq rcvSeq env)
  have least : (0 : Word).toNat < 8 * sMss.toNat := by decide
  refine ⟨sized.maxseg, ?_, fun p none => ?_, fun ack => doFastRexmt_sndCwnd _ ack⟩
  · rw [sized.maxseg, ← UdtCb.minCwnd_sMss sized.maxseg]
    exact BitVec.le_def.mp sized.low
  · have divisor := ackPoint_sized sized p
    have low := BitVec.le_def.mp divisor.low
    rw [UdtCb.minCwnd_sMss divisor.maxseg, none] at low
    omega

/-- In every run that is measured up to each slow start the window stays between its bounds. -/
theorem cwnd_bounds_of_measured (fack sndSeq rcvSeq : Word) (env : Env) (es : List Event)
    (measured : (init fack sndSeq rcvSeq env).RestartsMeasured es) :
    let s := (init fack sndSeq rcvSeq env).run es
    s.cb.maxseg = sMss ∧ 8 * s.cb.maxseg.toNat ≤ s.cb.sndCwnd.toNat ∧
      s.cb.sndCwnd ≤ TCP_MAXCWIN ∧ (∀ p, (s.ackPoint p).cb.sndCwnd ≠ 0) ∧
      ∀ ack, (s.doFastRexmt ack).cb.sndCwnd = s.handlePacketLost.cb.sndCwnd := by
  have start := init_sized fack sndSeq rcvSeq env
  have steps := (init fack sndSeq rcvSeq env).run_bounded es
  have least : (sMss.setWidth 32 <<< 3 : Word) ≤ TCP_MAXCWIN := by decide
  obtain ⟨maxseg, low, divisor, restored⟩ := cwnd_low fack sndSeq rcvSeq env es
  exact ⟨maxseg, low, steps.capped start least measured.calls, divisor, restored⟩

/-- A byte is lost twice, three seconds apart, and acknowledged at last. -/
def lossyEnv : Env := ⟨fun n => 600000 + 3000 * BitVec.ofNat 32 n, fun _ => 0⟩

def lossy : List Event :=
  [.accept 0, .datagram ⟨0, UdtHdr.TH_SYN, 65535, 0, 20, 100, 0, 0⟩ [],
    .datagram ⟨0, UdtHdr.TH_ACK, 65535, 0, 20, 101, 1, 0⟩ [], .sendByte 7] ++
    List.replicate 9 .slowTimo ++ [.datagram ⟨0, UdtHdr.TH_ACK, 65535, 0, 20, 101, 2, 0⟩ []]

/-- Two selective acknowledgements of sequence numbers that were never sent. The second is half of
the sequence space ahead of what was. -/
def forgedSacks : List Event :=
  [.datagram ⟨0, UdtHdr.TH_ACK, 65535, 0, 30, 101, 2, 0⟩
      [5, 10, 0x7f, 0xff, 0xff, 0xfe, 0x7f, 0xff, 0xff, 0xff],
    .datagram ⟨0, UdtHdr.TH_ACK, 65535, 0, 30, 101, 2, 0⟩
      [5, 10, 0x80, 0x00, 0x01, 0x01, 0x80, 0x00, 0x01, 0x02]]

/-- The next byte comes after a pause. -/
def resumed : List Event := List.replicate 12 .slowTimo ++ [.send ⟨⟨some [8], by simp⟩, 1⟩]

theorem lossy_resumed_cwnd :
    let s := (init 0 0 0 lossyEnv).run (lossy ++ resumed)
    s.cb.maxseg = sMss ∧ 8 * s.cb.maxseg.toNat ≤ s.cb.sndCwnd.toNat ∧
      s.cb.sndCwnd ≤ TCP_MAXCWIN ∧ (∀ p, (s.ackPoint p).cb.sndCwnd ≠ 0) ∧
      ∀ ack, (s.doFastRexmt ack).cb.sndCwnd = s.handlePacketLost.cb.sndCwnd :=
  cwnd_bounds_of_measured 0 0 0 lossyEnv (lossy ++ resumed) (.of_meets (by decide +kernel))

/-- Slow start takes the sequence numbers that were never sent for two gigabytes in flight. -/
theorem forged_cwnd_not_bounded :
    let s := (init 0 0 0 lossyEnv).run (lossy ++ forgedSacks ++ resumed)
    s.cb.maxseg = sMss ∧ 8 * sMss.toNat ≤ TCP_MAXCWIN.toNat ∧
      ¬(8 * s.cb.maxseg.toNat ≤ s.cb.sndCwnd.toNat ∧ s.cb.sndCwnd ≤ TCP_MAXCWIN) := by
  decide +kernel

end Events
end Endpoint

end UdtBoost
