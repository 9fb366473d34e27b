import UdtBoost.DupAcks
import UdtBoost.HeaderPrediction

/-! The receiving half. A packet works on it where its SYN is counted, where `TCP_REASS` takes it
and where `handle_fin` counts the peer's FIN. Nothing else that happens moves its numbers. -/
namespace UdtBoost

/-- The numbers of the receiving half, and the packets it holds. -/
structure Intake where
  irs : Word
  rcvNxt : Word
  synAccepted : List Word
  acc : Word
  queued : List UdtHdr
  waiting : List UdtHdr

namespace TcpState

theorem haveRcvdFin_acked {state : TcpState} (sentfin : Bool) :
    (state.acked sentfin).haveRcvdFin = state.haveRcvdFin := by
  cases state <;> cases sentfin <;> rfl

end TcpState

/-- What the user, the timers and the rest of a packet's event do. -/
def Act.Local : Act → Prop
  | .tau | .force _ | .send _ | .connect | .accept | .shutdown | .sndLimit _ | .rcvLimit _ | .close =>
      True
  | _ => False

/-- A step between two packets moves no number of the receiving half. -/
theorem Step.local {v w : View} {a : Act} (step : Step v a w) (here : a.Local) :
    w.irs = v.irs ∧ w.rcvNxt = v.rcvNxt ∧ w.synAccepted = v.synAccepted ∧
      (w.state = v.state ∨ w.state = .closed ∨
        v.state = .closed ∧ (w.state = .synSent ∧ a = .connect ∨ w.state = .listen ∧ a = .accept) ∨
        v.state = .established ∧ w.state = .finWait1 ∨
        v.state = .closeWait ∧ w.state = .lastAck) := by
  cases step with
  | transmit _ _ sends =>
      rw [sends.moved]
      exact ⟨rfl, rfl, rfl, .inl rfl⟩
  | closed => exact ⟨rfl, rfl, rfl, .inr (.inl rfl)⟩
  | connect state => exact ⟨rfl, rfl, rfl, .inr (.inr (.inl ⟨state, .inl ⟨rfl, rfl⟩⟩))⟩
  | accept state => exact ⟨rfl, rfl, rfl, .inr (.inr (.inl ⟨state, .inr ⟨rfl, rfl⟩⟩))⟩
  | shutdown =>
      refine ⟨rfl, rfl, rfl, ?_⟩
      dsimp only
      split_ifs with open_ waiting
      · exact .inr (.inr (.inr (.inl ⟨open_, rfl⟩)))
      · exact .inr (.inr (.inr (.inr ⟨waiting, rfl⟩)))
      · exact .inl rfl
  | close => exact ⟨rfl, rfl, rfl, .inr (.inl rfl)⟩
  | restore | ack | sack | ackAll | syn | store | rewrite | fin => exact absurd here not_false
  | _ => exact ⟨rfl, rfl, rfl, .inl rfl⟩

/-- A path between two packets moves no number of the receiving half. -/
theorem ViewPath.local {v w : View} (path : ViewPath (fun _ a => a.Local) v w) :
    w.irs = v.irs ∧ w.rcvNxt = v.rcvNxt ∧ w.synAccepted = v.synAccepted := by
  refine path.invariant (I := fun u => u.irs = v.irs ∧ u.rcvNxt = v.rcvNxt ∧
    u.synAccepted = v.synAccepted) ⟨rfl, rfl, rfl⟩ ?_
  intro u a x ⟨irs, nxt, accepted⟩ here step
  obtain ⟨irs', nxt', accepted', _⟩ := step.local here
  exact ⟨irs'.trans irs, nxt'.trans nxt, accepted'.trans accepted⟩

theorem ViewPath.local_of_tau {v w : View} (path : ViewPath OnlyTau v w) :
    ViewPath (fun _ a => a.Local) v w :=
  path.of_tau fun _ => trivial

namespace Endpoint

variable {s t : Endpoint} {p : UdtPacket} {e : Event}

def intake (s : Endpoint) : Intake where
  irs := s.cb.irs
  rcvNxt := s.cb.rcvNxt
  synAccepted := s.synAccepted
  acc := s.sk.rcvBuf.acc
  queued := s.sk.rcvBuf.pkts.map UdtPacket.hdr
  waiting := s.sk.rcvBuf.reasmPkts.map UdtPacket.hdr

section Checks

theorem output_intake (s : Endpoint) : s.output.intake = s.intake := by
  have fields : s.output.outside.intake = s.outside.intake := congrArg intake s.output_outside
  exact fields

theorem outputData_intake (s : Endpoint) :
    s.outputData.intake = s.intake ∧ s.outputData.cb.state = s.cb.state := by
  unfold outputData
  split
  · exact ⟨s.output_intake, congrArg Steady.state s.output_steady⟩
  · exact ⟨rfl, rfl⟩

theorem OptionStep.intake (step : OptionStep p s t) : t.intake = s.intake := by
  cases step with
  | fack named =>
      unfold UdtCb.updateSndFack
      split <;> rfl
  | sacked =>
      rw [dropSndPkt_eq]
      rfl
  | cwnd => rfl
  | rewrite buffer mem =>
      have plain : ∀ ps : List UdtPacket,
          (ps.map fun q => if q.buffer = buffer then { q with mem } else q).map UdtPacket.hdr =
            ps.map UdtPacket.hdr := by
        intro ps
        rw [List.map_map]
        refine List.map_congr_left fun q _ => ?_
        dsimp only [Function.comp]
        split <;> rfl
      simp only [Endpoint.intake, rewritePkt, plain, UdtBuf.acc]

theorem OptionSteps.intake (steps : OptionSteps p s t) : t.intake = s.intake := by
  induction steps with
  | refl => rfl
  | tail _ step ih => exact (OptionStep.intake step).trans ih

theorem acked_intake (s : Endpoint) (p : UdtPacket) : (s.acked p).intake = s.intake := by
  have first : (if s.cb.sndMax = p.hdr.ack then s.updateAckState else s).intake = s.intake := by
    split
    · obtain ⟨_, _, _, _, _, _, _, _, _, _, _, _, _, _, result⟩ := s.updateAckState_eq
      rw [result]
      rfl
    · rfl
  unfold acked
  dsimp only
  split
  · have steps := handleOptions_steps (if s.cb.sndMax = p.hdr.ack then s.updateAckState else s) p
    exact (OptionSteps.intake steps).trans first
  · exact first

theorem doFastRexmt_intake (s : Endpoint) (ack : Word) :
    (s.doFastRexmt ack).intake = s.intake := by
  obtain ⟨_, _, _, _, _, _, _, _, result, _⟩ := s.beginFastRexmt_eq ack
  have begun : (s.handlePacketLost.beginFastRexmt ack).intake = s.intake := by
    rw [result]
    rfl
  have sent := output_intake (s.handlePacketLost.beginFastRexmt ack)
  rw [doFastRexmt]
  dsimp only
  generalize (s.handlePacketLost.beginFastRexmt ack).output = x at sent ⊢
  exact Eq.trans sent begun

theorem ackDuplicate_intake (s : Endpoint) (ti : UdtHdr) :
    (s.ackDuplicate ti).2.intake = s.intake ∧ (s.ackDuplicate ti).2.cb.state = s.cb.state := by
  have timer : ∀ (c : UdtCb) (x : Endpoint), x.cb = c.resetRexmtTimer → x.sk = s.sk →
      x.synAccepted = s.synAccepted → c.irs = s.cb.irs → c.rcvNxt = s.cb.rcvNxt →
      c.state = s.cb.state → x.intake = s.intake ∧ x.cb.state = s.cb.state := by
    intro c x reset same accepted irs nxt state
    obtain ⟨_, _, result⟩ := resetRexmtTimer_eq c
    rw [result] at reset
    simp only [intake, same, reset, accepted, irs, nxt, state, and_self]
  rw [ackDuplicate]
  dsimp only
  split
  · obtain ⟨_, _, result⟩ := s.ackWindow_eq (ti.win.setWidth 32)
    exact ⟨(congrArg intake result).trans rfl, (congrArg (fun x : Endpoint => x.cb.state) result).trans rfl⟩
  split
  · exact timer _ _ rfl rfl rfl rfl rfl rfl
  split
  · exact ⟨doFastRexmt_intake _ _, congrArg Steady.state (doFastRexmt_steady _ ti.ack)⟩
  split
  · exact ⟨rfl, rfl⟩
  · exact timer _ _ rfl rfl rfl rfl rfl rfl

/-- Whether `handle_ack` finds everything acknowledged. -/
def acksAll (s : Endpoint) (ti : UdtHdr) : Prop := s.acceptsAck ti ∧ s.cb.sndMax = ti.ack

instance (s : Endpoint) (ti : UdtHdr) : Decidable (s.acksAll ti) :=
  inferInstanceAs (Decidable (_ ∧ _))

theorem handleAck_intake (s : Endpoint) (p : UdtPacket) :
    (s.handleAck p).2.intake = s.intake ∧
      (s.handleAck p).2.cb.state =
        if s.acksAll p.hdr then s.cb.state.acked s.cb.flags.sentfin else s.cb.state := by
  have state : (s.acked p).cb.state =
      if s.cb.sndMax = p.hdr.ack then s.cb.state.acked s.cb.flags.sentfin else s.cb.state := by
    obtain ⟨_, _, _, _, _, _, _, _, _, _, _, _, _, _, _, _, _, _, _, _, result⟩ := s.acked_eq p
    rw [result]
  have outcome := s.handleAck_outcome p
  generalize s.handleAck p = result at outcome ⊢
  cases outcome with
  | old old => exact ⟨rfl, (if_neg fun all => all.1.1 old).symm⟩
  | beyond beyond => exact ⟨rfl, (if_neg fun all => all.1.2 beyond).symm⟩
  | duplicate accepted same =>
      obtain ⟨intake, kept⟩ := ackDuplicate_intake (s.acked p) p.hdr
      simp only [kept, state, acksAll, accepted, true_and]
      exact ⟨intake.trans (s.acked_intake p), trivial⟩
  | new accepted above =>
      obtain ⟨_, _, _, _, _, _, _, _, _, result⟩ := (s.acked p).ackNewData_eq p.hdr
      have intake : ((s.acked p).ackNewData p.hdr).intake = (s.acked p).intake := by
        rw [result]
        rfl
      have kept : ((s.acked p).ackNewData p.hdr).cb.state = (s.acked p).cb.state := by rw [result]
      simp only [kept, state, acksAll, accepted, true_and]
      exact ⟨intake.trans (s.acked_intake p), trivial⟩

theorem handleFin_intake (s : Endpoint) :
    s.handleFin.intake =
        { s.intake with rcvNxt := s.cb.rcvNxt + if s.cb.TCPS_HAVERCVDFIN then 0 else 1 } ∧
      s.handleFin.cb.state = s.cb.state.finned := by
  obtain ⟨_, _, result⟩ := s.handleFin_eq
  rw [result]
  split
  · exact ⟨by simp [intake], rfl⟩
  · exact ⟨rfl, rfl⟩

theorem entered_intake (s : Endpoint) (p : UdtPacket) : (s.entered p).intake = s.intake := by
  obtain ⟨_, _, _, _, _, _, _, result⟩ := s.entered_eq p
  rw [result]
  rfl

/-- States in which a SYN is accepted. -/
def greets (s : Endpoint) : Prop :=
  s.cb.state = .listen ∨ s.cb.state = .synSent ∨ s.cb.state = .synReceived

instance (s : Endpoint) : Decidable s.greets := inferInstanceAs (Decidable (_ ∨ _ ∨ _))

theorem handleSyn_intake (s : Endpoint) (p : UdtPacket) :
    (s.handleSyn p).2.2.intake = (if s.greets then
        { s.intake with
          irs := p.hdr.seq + 1, rcvNxt := p.hdr.seq + 1
          synAccepted := s.synAccepted ++ [p.hdr.seq] }
      else s.intake) ∧
    (s.handleSyn p).2.2.cb.state = if s.greets then .synReceived else s.cb.state := by
  obtain ⟨_, _, _, result⟩ := s.handleSyn_eq p
  by_cases greets : s.greets
  · rw [if_pos greets, if_pos greets, result, if_pos (by exact greets)]
    exact ⟨rfl, rfl⟩
  · rw [if_neg greets, if_neg greets, result, if_neg (by exact greets)]
    exact ⟨rfl, rfl⟩

theorem synced_intake (s : Endpoint) (p : UdtPacket) :
    (s.synced p).intake = (if hasSyn p.hdr.flags = true ∧ s.greets then
        { s.intake with
          irs := p.hdr.seq + 1, rcvNxt := p.hdr.seq + 1
          synAccepted := s.synAccepted ++ [p.hdr.seq] }
      else s.intake) ∧
    (s.synced p).cb.state =
      if hasSyn p.hdr.flags = true ∧ s.greets then .synReceived else s.cb.state := by
  have state := s.entered_state p
  have same := s.entered_intake p
  have greets : (s.entered p).greets ↔ s.greets := by
    unfold Endpoint.greets
    rw [state]
  have accepted : (s.entered p).synAccepted = s.synAccepted := congrArg Intake.synAccepted same
  by_cases isSyn : hasSyn p.hdr.flags = true
  · have handled := (s.entered p).handleSyn_intake p
    simp only [greets, same, state, accepted] at handled
    simp only [synced, isSyn, if_true, true_and]
    exact handled
  · have stays : ¬(hasSyn p.hdr.flags = true ∧ s.greets) := fun both => isSyn both.1
    rw [synced, if_neg isSyn, if_neg stays, if_neg stays]
    exact ⟨same, state⟩

theorem stored_state (s : Endpoint) (p : UdtPacket) : (s.stored p).cb.state = s.cb.state := by
  obtain ⟨_, _, _, _, _, _, result⟩ := s.stored_eq p
  rw [result]

/-- The packet passes the checks of `input`, and its SYN is not refused. -/
def takes (s : Endpoint) (p : UdtPacket) : Prop :=
  s.admits p.hdr = true ∧
    (hasSyn p.hdr.flags = true → ((s.entered p).handleSyn p).1 = false)

instance (s : Endpoint) (p : UdtPacket) : Decidable (s.takes p) :=
  inferInstanceAs (Decidable (_ ∧ _))

/-- The state after `TCP_REASS`. -/
def reassembled (s : Endpoint) (p : UdtPacket) : Endpoint := (s.synced p).stored p.counted

theorem reassembled_unmoved (s : Endpoint) (p : UdtPacket) :
    (s.reassembled p).cb.irs = (s.synced p).cb.irs ∧
      (s.reassembled p).synAccepted = (s.synced p).synAccepted ∧
      (s.reassembled p).cb.iss = (s.synced p).cb.iss ∧
      (s.reassembled p).cb.sndMax = (s.synced p).cb.sndMax := by
  obtain ⟨_, _, _, _, _, _, result⟩ := (s.synced p).stored_eq p.counted
  rw [reassembled, result]
  exact ⟨rfl, rfl, rfl, rfl⟩

/-- The state in which `input` looks for a FIN. -/
def finPoint (s : Endpoint) (p : UdtPacket) : Endpoint :=
  if hasAck p.hdr.flags then ((s.reassembled p).handleAck p.counted).2 else s.reassembled p

/-- The packet comes to `handle_fin`. -/
def comesToFin (s : Endpoint) (p : UdtPacket) : Prop :=
  s.takes p ∧ ((s.entered p).doHeaderPrediction p).1 = false ∧
    (s.reassembled p).sk.rcvBuf.fin = true ∧
    (hasAck p.hdr.flags = true → ((s.reassembled p).handleAck p.counted).1 = false)

instance (s : Endpoint) (p : UdtPacket) : Decidable (s.comesToFin p) :=
  inferInstanceAs (Decidable (_ ∧ _ ∧ _ ∧ _))

theorem finPoint_intake (s : Endpoint) (p : UdtPacket) :
    (s.finPoint p).intake = (s.reassembled p).intake ∧
      (s.finPoint p).cb.state =
        if hasAck p.hdr.flags = true ∧ (s.reassembled p).acksAll p.counted.hdr then
          (s.synced p).cb.state.acked (s.reassembled p).cb.flags.sentfin
        else (s.synced p).cb.state := by
  have state : (s.reassembled p).cb.state = (s.synced p).cb.state := stored_state _ _
  by_cases isAck : hasAck p.hdr.flags = true
  · obtain ⟨intake, acked⟩ := (s.reassembled p).handleAck_intake p.counted
    simp only [finPoint, isAck, if_true, true_and, acked, state]
    exact ⟨intake, trivial⟩
  · have stays : ¬(hasAck p.hdr.flags = true ∧ (s.reassembled p).acksAll p.counted.hdr) :=
      fun both => isAck both.1
    rw [finPoint, if_neg isAck, if_neg stays]
    exact ⟨rfl, state⟩

/-- A segment past its SYN ends with `handle_fin`, or where that would have been called. -/
theorem inputSegment_finPoint (s : Endpoint) (p : UdtPacket) (taken : s.takes p)
    (missed : ((s.entered p).doHeaderPrediction p).1 = false) :
    (s.synced p).inputSegment p.counted =
      if s.comesToFin p then (s.finPoint p).handleFin else s.finPoint p := by
  have flags := (counted_hdr p).2.2
  rw [inputSegment_eq, flags]
  unfold finPoint comesToFin reassembled
  by_cases isAck : hasAck p.hdr.flags = true
  · simp only [isAck, if_true, taken, missed, true_and, true_implies, and_comm]
  · simp only [isAck, Bool.false_eq_true, if_false, taken, missed, true_and, false_implies, and_true]

theorem inputChecked_segment (taken : s.takes p)
    (missed : ((s.entered p).doHeaderPrediction p).1 = false) :
    s.inputChecked p = if s.comesToFin p then (s.finPoint p).handleFin else s.finPoint p := by
  have segment := s.inputSegment_finPoint p taken missed
  have outcome := s.inputChecked_outcome p
  generalize s.inputChecked p = t at outcome ⊢
  cases outcome with
  | segment => exact segment
  | synRefused _ isSyn refused => exact absurd (refused.symm.trans (taken.2 isSyn)) (by decide)
  | ackPredicted _ _ _ _ _ _ fast => exact absurd (fast.symm.trans missed) (by decide)
  | storePredicted _ _ _ _ fast => exact absurd (fast.symm.trans missed) (by decide)
  | ignored refused => exact absurd (refused.symm.trans taken.1) (by decide)
  | hangup refused => exact absurd (refused.symm.trans taken.1) (by decide)
  | outside refused => exact absurd (refused.symm.trans taken.1) (by decide)

theorem reassembled_plain (noSyn : hasSyn p.hdr.flags = false) :
    s.reassembled p = (s.entered p).stored p := by
  have plain : ¬ hasSyn p.hdr.flags = true := by simp [noSyn]
  rw [reassembled, synced, if_neg plain, UdtPacket.counted, if_neg plain]

/-- A packet the fast path takes is done with there. -/
theorem inputChecked_fast (admitted : s.admits p.hdr = true)
    (taken : ((s.entered p).doHeaderPrediction p).1 = true) :
    s.inputChecked p = ((s.entered p).doHeaderPrediction p).2 := by
  have view := s.timed_view p
  rw [← admits_of_view view, admits_iff] at admitted
  obtain ⟨alive, plain, inside⟩ := admitted
  have timed : s.timed p = updateRtt
    { s with cb.pseq := p.hdr.seq, cb.idle := 0, cb.tKeep := sKeepidle } p.hdr.pseq := rfl
  have windowed : (s.timed p).withRcvWnd = s.entered p := rfl
  rw [inputChecked]
  dsimp only
  rw [← timed, if_neg alive, if_neg (by simp [plain]), dropOutOfRcvWndPacket_eq,
    if_neg (by simp [inside]), windowed]
  dsimp only
  generalize (s.entered p).doHeaderPrediction p = result at taken ⊢
  obtain ⟨_ | _, t⟩ := result
  · contradiction
  · rfl

/-- The fast path ends where the slow one would have stored the packet. -/
theorem inputChecked_fast_intake (admitted : s.admits p.hdr = true)
    (taken : ((s.entered p).doHeaderPrediction p).1 = true) :
    (s.inputChecked p).intake = (s.reassembled p).intake ∧
      (s.inputChecked p).cb.state = .established ∧ s.cb.state = .established := by
  obtain ⟨state, ⟨noSyn, noFin, _⟩, next, _, _, data⟩ := predicts_of_taken taken
  have established : s.cb.state = .established := (s.entered_state p).symm.trans state
  have unflagged : ¬ hasFlag p.hdr.flags (UdtHdr.TH_SYN ||| UdtHdr.TH_FIN) = true := by
    rw [hasFlag_or, Bool.or_eq_true, not_or]
    exact ⟨by simpa [hasSyn] using noSyn, by simpa [hasFin] using noFin⟩
  have cases := (s.entered p).doHeaderPrediction_cases p
  rw [inputChecked_fast admitted taken, reassembled_plain noSyn, stored]
  generalize s.entered p = w at state next data taken cases ⊢
  rcases cases with missed |
    ⟨_, _, ⟨bare, _, _, result⟩ | ⟨some_, rb, fits, result⟩⟩
  · rw [missed] at taken
    contradiction
  · have stays : ¬ needsReass p.hdr := fun needs => needs.elim (absurd bare) unflagged
    obtain ⟨_, _, _, _, _, _, _, _, acked⟩ := w.ackPredicted_eq p.hdr.ack
    have same : (w.ackPredicted p.hdr.ack).intake = w.intake := by
      rw [acked]
      rfl
    have kept : (w.ackPredicted p.hdr.ack).cb.state = .established := by
      rw [acked]
      exact state
    rw [result, if_neg stays]
    generalize w.ackPredicted p.hdr.ack = x at same kept ⊢
    obtain ⟨intake, state⟩ := x.outputData_intake
    exact ⟨intake.trans same, state.trans kept, established⟩
  · have empty := (data some_).2.1
    rw [result, if_pos (.inl some_), TCP_REASS, if_pos ⟨next, empty⟩, fits]
    exact ⟨rfl, state, established⟩

/-- What `input` does to the receiving half, and to the state of the connection. -/
theorem inputChecked_intake (s : Endpoint) (p : UdtPacket) :
    (s.inputChecked p).intake = (if s.takes p then
        if s.comesToFin p then (s.finPoint p).handleFin.intake else (s.reassembled p).intake
      else s.intake) ∧
    (s.inputChecked p).cb.state = if s.takes p then
        if s.comesToFin p then (s.finPoint p).cb.state.finned else (s.finPoint p).cb.state
      else s.cb.state := by
  have entered := s.entered_intake p
  have state := s.entered_state p
  by_cases fast : s.admits p.hdr = true ∧ ((s.entered p).doHeaderPrediction p).1 = true
  · obtain ⟨admitted, taken⟩ := fast
    obtain ⟨intake, kept, established⟩ := inputChecked_fast_intake admitted taken
    have noSyn := (predicts_of_taken taken).flags.1
    have takes : s.takes p := ⟨admitted, fun isSyn => by rw [noSyn] at isSyn; contradiction⟩
    have noFin : ¬ s.comesToFin p := fun fin => by rw [fin.2.1] at taken; contradiction
    have plain : ¬(hasSyn p.hdr.flags = true ∧ s.greets) := fun both => by simp [noSyn] at both
    rw [if_pos takes, if_neg noFin, if_pos takes, if_neg noFin]
    refine ⟨intake, ?_⟩
    rw [(s.finPoint_intake p).2, (s.synced_intake p).2, if_neg plain, kept, established]
    split <;> rfl
  have outcome := s.inputChecked_outcome p
  generalize s.inputChecked p = t at outcome ⊢
  have outside : s.admits p.hdr = false → ¬ s.takes p := fun refused taken => by
    rw [taken.1] at refused
    contradiction
  cases outcome with
  | ignored refused =>
      rw [if_neg (outside refused), if_neg (outside refused)]
      exact ⟨entered, state⟩
  | hangup refused =>
      rw [if_neg (outside refused), if_neg (outside refused)]
      exact ⟨entered, state⟩
  | outside refused =>
      rw [if_neg (outside refused), if_neg (outside refused)]
      exact ⟨entered, state⟩
  | ackPredicted admitted _ _ _ _ _ taken => exact absurd ⟨admitted, taken⟩ fast
  | storePredicted admitted _ _ _ taken => exact absurd ⟨admitted, taken⟩ fast
  | synRefused admitted isSyn refused later =>
      have stays : ¬ s.takes p := fun taken => by rw [taken.2 isSyn] at refused; contradiction
      have plain : ¬(hasSyn p.hdr.flags = true ∧ s.greets) := by
        rintro ⟨-, greets | greets | greets⟩ <;> rw [greets] at later <;> revert later <;> decide
      have synced := s.synced_intake p
      rw [if_neg plain, if_neg plain] at synced
      rw [if_neg stays, if_neg stays]
      exact synced
  | segment admitted missed taken =>
      have takes : s.takes p := ⟨admitted, taken⟩
      rw [inputSegment_finPoint s p takes missed, if_pos takes, if_pos takes]
      by_cases fin : s.comesToFin p
      · rw [if_pos fin, if_pos fin, if_pos fin]
        exact ⟨rfl, (handleFin_intake _).2⟩
      · rw [if_neg fin, if_neg fin, if_neg fin]
        exact ⟨(s.finPoint_intake p).1, rfl⟩

/-- Where the FIN is counted, unless it was before. -/
theorem finPoint_haveRcvdFin (s : Endpoint) (p : UdtPacket) :
    (s.finPoint p).cb.TCPS_HAVERCVDFIN = (s.synced p).cb.state.haveRcvdFin := by
  change (s.finPoint p).cb.state.haveRcvdFin = _
  rw [(s.finPoint_intake p).2]
  split
  · exact TcpState.haveRcvdFin_acked _
  · rfl

/-- A packet that is taken is stored, and the FIN behind it is counted. -/
theorem taken_intake (taken : s.takes p) : (s.inputChecked p).intake =
    { (s.reassembled p).intake with
      rcvNxt := (s.reassembled p).cb.rcvNxt +
        if s.comesToFin p ∧ (s.synced p).cb.state.haveRcvdFin = false then 1 else 0 } := by
  have had := s.finPoint_haveRcvdFin p
  have here : (s.finPoint p).cb.rcvNxt = (s.reassembled p).cb.rcvNxt :=
    congrArg Intake.rcvNxt (s.finPoint_intake p).1
  rw [(s.inputChecked_intake p).1, if_pos taken]
  by_cases fin : s.comesToFin p
  · rw [if_pos fin, (handleFin_intake _).1, (s.finPoint_intake p).1, had, here]
    cases (s.synced p).cb.state.haveRcvdFin <;> simp [fin]
  · rw [if_neg fin, if_neg fun both => fin both.1]
    simp [intake]

end Checks

section Events

/-- Where no packet reaches the protocol, only the user and the timers act. -/
theorem quiet_path {C : View → Act → Prop} (none : s.arriving e = none)
    (free : ∀ v a, a.Local → (∀ w, a ≠ .rcvLimit w) → C v a)
    (limit : ∀ w, e = .setRcvBuf w → C s.view (.rcvLimit w)) :
    ViewPath C s.view (s.step e).view := by
  have tau : ∀ v : View, C v .tau := fun v => free v _ trivial (by simp)
  cases e with
  | packet hdr mem n =>
      rw [step]
      rcases s.handleReceive_cases hdr mem n with (same | same) | ⟨buffer, alive, pending, good, _⟩
      · rw [same]
        exact .refl _
      · rw [same]
        exact s.doReceive_path.of_tau tau
      · simp [arriving, alive, pending, good] at none
  | slowTimo => exact s.step_path .slowTimo tau fun v on => free v _ trivial (by simp)
  | close => exact s.step_path .close tau fun v => free v _ trivial (by simp)
  | connect h => exact s.step_path (.connect h) tau (free _ _ trivial (by simp))
  | accept h => exact s.step_path (.accept h) tau (free _ _ trivial (by simp))
  | send op => exact s.step_path (.send op) tau (free _ _ trivial (by simp))
  | shutdown h => exact s.step_path (.shutdown h) tau (free _ _ trivial (by simp))
  | setSndBuf v => exact s.step_path (.setSndBuf v) tau (free _ _ trivial (by simp))
  | setRcvBuf v => exact s.step_path (.setRcvBuf v) tau (limit v rfl)
  | fastTimo => exact s.step_path .fastTimo tau trivial
  | receive op => exact s.step_path (.receive op) tau trivial
  | delayTimer aborted => exact s.step_path (.delayTimer aborted) tau trivial
  | receiveError value => exact s.step_path (.receiveError value) tau trivial
  | mtu => exact s.step_path .mtu tau trivial
  | setKeepalive on => exact s.step_path (.setKeepalive on) tau trivial
  | cancel => exact s.step_path .cancel tau trivial

theorem local_path (none : s.arriving e = none) :
    ViewPath (fun _ a => a.Local) s.view (s.step e).view :=
  quiet_path none (fun _ _ here _ => here) fun _ _ => trivial

/-- What follows the checks of `input` in a packet's event. -/
theorem arriving_path (here : s.arriving e = some p) :
    ViewPath OnlyTau (s.inputChecked p).view (s.step e).view := by
  obtain ⟨hdr, mem, n, buffer, rfl, alive, pending, good, rfl⟩ := arriving_inv here
  change ViewPath OnlyTau _ (s.handleReceive hdr mem n).view
  rw [handleReceive_good alive pending good]
  generalize s.inputChecked (hostPacket hdr mem buffer) = t
  refine t.commitNotifies_path.trans ?_
  generalize t.commitNotifies = x
  unfold received pktConsumed
  cases consumed : x.cb.flags.packetConsumed with
  | true =>
      have again := doReceive_path { x with cb.flags.packetConsumed := false, sk.rcvPkt := none }
      exact (Step.kept (v := x.view)).path.trans again
  | false => exact x.doReceive_path

end Events

end Endpoint

end UdtBoost
