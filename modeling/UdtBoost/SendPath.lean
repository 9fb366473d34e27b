import UdtBoost.View

/-! The sender's half of the decomposition: queued operations, the choice of a packet, one
transmission, and so a whole call of `output`, as steps of the view. -/
namespace UdtBoost

namespace UdtBuf

theorem segment_unflagged (segSize fuel : Nat) (seq : Word) (data : List UChar) :
    (segment segSize fuel seq data).map UdtPacket.unflagged =
      segment segSize fuel seq data := by
  induction fuel generalizing seq data with
  | zero => rfl
  | succ fuel ih =>
      rw [segment]
      split
      · rfl
      · rw [List.map_cons, ih]
        rfl

theorem unflagged_appendData (b : UdtBuf) (data : Option (List UChar)) (segSize : Nat) :
    b.unflagged.appendData data segSize = (b.appendData data segSize).map unflagged := by
  cases data with
  | none => rfl
  | some bytes =>
      have same : b.unflagged.acc = b.acc := rfl
      simp only [appendData, same]
      split
      · rfl
      · simp only [Option.map_some, unflagged, List.map_append, segment_unflagged]

theorem unflagged_appendOps (segSize : Nat) (ops : List SendOperation) (b : UdtBuf) :
    b.unflagged.appendOps segSize ops = (b.appendOps segSize ops).map unflagged := by
  induction ops generalizing b with
  | nil => rfl
  | cons op ops ih =>
      simp only [appendOps, unflagged_appendData]
      cases b.appendData op.buf.data segSize with
      | none => rfl
      | some b => exact ih b

end UdtBuf

namespace Endpoint

/-- The operations consumed are a prefix of the queue, appended whole and in order. -/
theorem consumePendingLoop_spec (s : Endpoint) (queue : List SendOperation) :
    ∃ ops rest b, queue = ops ++ rest ∧
      s.sk.sndBuf.appendOps s.cb.maxseg.toNat ops = some b ∧
      s.consumePendingLoop queue = ((ops.map (·.buf.size)).sum,
        { s with
          sk.sndBuf := b
          sk.sendOps := rest
          posted := s.posted ++ ops.map fun op => .sent op .succeed op.buf.size }) := by
  induction queue generalizing s with
  | nil => exact ⟨[], [], s.sk.sndBuf, rfl, rfl, by simp [consumePendingLoop]⟩
  | cons op rest ih =>
      cases appended : s.sk.sndBuf.appendData op.buf.data s.cb.maxseg.toNat with
      | none =>
          refine ⟨[], op :: rest, s.sk.sndBuf, rfl, rfl, ?_⟩
          simp [consumePendingLoop, appended]
      | some b =>
          obtain ⟨ops, left, b', split, more, result⟩ :=
            ih ({ s with sk.sndBuf := b }.post (.sent op .succeed op.buf.size))
          refine ⟨op :: ops, left, b', by rw [split, List.cons_append], ?_, ?_⟩
          · rw [UdtBuf.appendOps, appended]
            exact more
          · simp only [consumePendingLoop, appended, result]
            simp only [post, List.map_cons, List.sum_cons, List.append_assoc,
              List.singleton_append]

theorem consumePendingData_path (s : Endpoint) :
    ViewPath OnlyTau s.view s.consumePendingData.2.view := by
  obtain ⟨ops, rest, b, queue, appended, result⟩ := s.consumePendingLoop_spec s.sk.sendOps
  have unflagged := UdtBuf.unflagged_appendOps s.cb.maxseg.toNat ops s.sk.sndBuf
  rw [appended, Option.map_some] at unflagged
  have step := Step.consume (v := s.view) queue s.cb.maxseg.isLt unflagged
  rw [consumePendingData, result]
  exact step.path

theorem getSndPktLoop_spec (s : Endpoint) (len : Word) (before pkts : List UdtPacket)
    (queue : s.sk.sndBuf.pkts = before ++ pkts) :
    (s.getSndPktLoop len before pkts = (none, s) ∧
        ∀ p, pkts.find? (isCandidate s.cb.sndNxt) = some p → ¬ p.hdr.len.setWidth 32 ≤ len) ∨
      ∃ p q data flagged, s.Selected len pkts p q ∧
        flagged.map UdtPacket.unflagged =
          s.sk.sndBuf.pkts.map UdtPacket.unflagged ∧
        s.getSndPktLoop len before pkts = (some q,
          { s with cb.retransData := data, cb.sndNxt := p.hdr.seq, sk.sndBuf.pkts := flagged }) := by
  induction pkts generalizing before with
  | nil => exact .inl ⟨rfl, by simp⟩
  | cons p after ih =>
      by_cases candidate : seqGe p.hdr.seq s.cb.sndNxt ∧ !hasRexmt p.hdr.flags
      case neg =>
        rw [getSndPktLoop, if_neg candidate]
        have skipped : isCandidate s.cb.sndNxt p = false := by
          simpa [isCandidate] using candidate
        rcases ih (before ++ [p]) (by rw [queue, List.append_assoc, List.singleton_append]) with
          ⟨none, unfit⟩ | ⟨x, q, data, flagged, ⟨first, fits, copy⟩, same, result⟩
        · refine .inl ⟨none, ?_⟩
          rwa [List.find?_cons_of_neg (by simp [skipped])]
        · refine .inr ⟨x, q, data, flagged, ⟨?_, fits, copy⟩, same, result⟩
          rw [List.find?_cons_of_neg (by simp [skipped]), first]
      case pos =>
        have found : (p :: after).find? (isCandidate s.cb.sndNxt) = some p :=
          List.find?_cons_of_pos (by simpa [isCandidate] using candidate)
        rw [getSndPktLoop, if_pos candidate]
        by_cases fits : p.hdr.len.setWidth 32 ≤ len
        case neg =>
          rw [if_neg fits, found]
          refine .inl ⟨rfl, ?_⟩
          rintro x ⟨⟩
          exact fits
        case pos =>
          rw [if_pos fits]
          by_cases old : seqLt p.hdr.seq s.cb.sndMax
          · rw [if_pos old]
            refine .inr ⟨p, _, _, _, ⟨found, fits, .inr rfl⟩, ?_, rfl⟩
            rw [queue, List.map_append, List.map_append, List.map_cons, List.map_cons]
            rfl
          · rw [if_neg old]
            exact .inr ⟨p, p, s.cb.retransData, s.sk.sndBuf.pkts, ⟨found, fits, .inl rfl⟩, rfl, rfl⟩

theorem outputRewind_eq (s : Endpoint) (flags : UChar) :
    s.outputRewind flags = { s with cb.sndNxt := s.toConn.core.rewound flags s.cb.sndNxt } := by
  unfold outputRewind Core.rewound
  by_cases syn : hasSyn flags = true <;> by_cases fin : hasFin flags = true <;>
    simp only [syn, fin, if_true, if_false, true_and, false_and, Bool.false_eq_true]
  all_goals first | rfl | (split <;> split <;> first | rfl | contradiction)

theorem advanceNxt_view (s : Endpoint) (flags : UChar) (len : Word) :
    (s.advanceNxt flags len).view = { s.view with
      sndNxt := s.cb.sndNxt + synLen flags + finLen flags + len
      sentfin := s.cb.flags.sentfin || hasFin flags } := by
  unfold advanceNxt synLen finLen
  cases syn : hasSyn flags <;> cases fin : hasFin flags <;> simp [view, Conn.core]

theorem raiseSndMax_view (s : Endpoint) (startseq : Word) :
    (s.raiseSndMax startseq).view = { s.view with sndMax := seqMax s.cb.sndNxt s.cb.sndMax } := by
  unfold raiseSndMax seqMax
  split
  · dsimp only
    split <;> rfl
  · rfl

theorem leavePersist_view (s : Endpoint) :
    ({ s with cb := s.cb.leavePersist } : Endpoint).view = s.view := by
  unfold UdtCb.leavePersist
  split <;> rfl

theorem armRexmt_view (s : Endpoint) : s.armRexmt.view = s.view := by
  unfold armRexmt
  split
  · exact leavePersist_view { s with cb.tRexmt := s.cb.rxtcur }
  · rfl

theorem outputAdvance_view (s : Endpoint) (flags : UChar) (len : Word) :
    (s.outputAdvance flags len).view =
      { s.view with
        sndNxt := if s.probing then s.cb.sndNxt
          else s.cb.sndNxt + synLen flags + finLen flags + len
        sndMax := seqMax (if s.probing then s.cb.sndNxt + len
          else s.cb.sndNxt + synLen flags + finLen flags + len) s.cb.sndMax
        sentfin := s.cb.flags.sentfin || (!s.probing && hasFin flags) } := by
  unfold outputAdvance
  cases forced : s.probing with
  | true =>
    rw [if_neg (by rw [← Conn.not_probing_iff, forced]; simp)]
    simp only [if_true, seqMax]
    split <;> simp [view, Conn.core]
  | false =>
    rw [if_pos ((Conn.not_probing_iff _).mp forced), armRexmt_view, raiseSndMax_view]
    have advanced := advanceNxt_view s flags len
    have nxt : (s.advanceNxt flags len).cb.sndNxt = _ :=
      congrArg (fun v : View => v.sndNxt) advanced
    have max : (s.advanceNxt flags len).cb.sndMax = _ :=
      congrArg (fun v : View => v.sndMax) advanced
    rw [nxt, max, advanced]
    simp [view, Conn.core]

theorem pktLen_setWidth (pkt : Option UdtPacket) :
    ((Conn.pktLen pkt).setWidth 16).setWidth 32 = Conn.pktLen pkt := by
  cases pkt with
  | none => rfl
  | some p => simp [Conn.pktLen]

theorem outputSent_view (s : Endpoint) (rcvWin : Word) :
    (s.outputSent rcvWin).view = { s.view with
      rcvAdv := if 0 < rcvWin.toInt then seqMax (s.cb.rcvNxt + rcvWin) s.cb.rcvAdv
        else s.cb.rcvAdv } := by
  unfold outputSent seqMax
  by_cases positive : 0 < rcvWin.toInt <;>
    by_cases above : seqGt (s.cb.rcvNxt + rcvWin) s.cb.rcvAdv <;>
    simp only [positive, above, and_self, and_true, and_false, if_true, if_false] <;> rfl

/-- The header of the datagram that is sent. -/
theorem outputDatagram_hdr (c : Conn) (flags : UChar) (pkt : Option UdtPacket) (rcvWin : Word) :
    (c.outputDatagram flags pkt rcvWin).hdr.ntoh =
      { ver := 0, flags, win := rcvWin.setWidth 16, len := (Conn.pktLen pkt).setWidth 16
        off := BitVec.ofNat 16 (UdtHdr.size +
          (if hasAck flags then c.composeOptions (UdtHdr.MAX_HEADER_SIZE - UdtHdr.size)
            else []).length)
        seq := c.outputSeq flags (Conn.pktLen pkt), ack := c.cb.rcvNxt, pseq := c.cb.pseq } := by
  rw [Conn.outputDatagram, UdtHdr.ntoh_hton]

/-- Only `m_snd_nxt`, the retransmission timers and the packets' flags have changed. -/
structure MovedNxt (s u : Endpoint) : Prop where
  view : u.view = { s.view with sndNxt := u.cb.sndNxt }
  window : ∀ raw, u.clampRcvWin raw = s.clampRcvWin raw
  options : ∀ n, u.composeOptions n = s.composeOptions n
  probing : u.probing = s.probing
  force : u.cb.force = s.cb.force

theorem MovedNxt.refl (s : Endpoint) : MovedNxt s s :=
  ⟨rfl, fun _ => rfl, fun _ => rfl, rfl, rfl⟩

theorem MovedNxt.core {s u : Endpoint} (moved : MovedNxt s u) :
    u.toConn.core = { s.toConn.core with sndNxt := u.cb.sndNxt } :=
  congrArg View.toCore moved.view

/-- The code after the `send` label, for a packet that was chosen in `s`. -/
theorem outputSend_spec (s u : Endpoint) (pkt : Option UdtPacket) (raw : Word) (t : Transmission)
    (only : MovedNxt s u)
    (dgram : t.dgram = (u.outputSend (u.outputFlags (Conn.pktLen pkt)) pkt raw).1)
    (before : t.before = s.toConn)
    (rawWin : raw = if Conn.pktLen pkt ≠ 0 then t.staleRcvWin else s.sk.rcvBuf.acc) :
    Sends s.toConn.core pkt u.cb.sndNxt t
        (u.outputSend (u.outputFlags (Conn.pktLen pkt)) pkt raw).2.toConn.core ∧
      (u.outputSend (u.outputFlags (Conn.pktLen pkt)) pkt raw).2.view =
        { u.view with
          toCore := (u.outputSend (u.outputFlags (Conn.pktLen pkt)) pkt raw).2.toConn.core
          wire := u.wire ++ [t.dgram] } := by
  have core := only.core
  have window := only.window raw
  have options := only.options
  have probing := only.probing
  have flagsEq : u.outputFlags (Conn.pktLen pkt) =
      s.toConn.core.outputFlags (u.cb.sndNxt + Conn.pktLen pkt) := by
    change u.toConn.core.outputFlags _ = _
    rw [core]
    rfl
  generalize u.outputFlags (Conn.pktLen pkt) = flags at *
  have same : u.toConn.core.rewound flags u.cb.sndNxt =
      s.toConn.core.rewound flags u.cb.sndNxt := by
    rw [core]
    rfl
  have rewind := outputRewind_eq u flags
  rw [same] at rewind
  generalize moved : s.toConn.core.rewound flags u.cb.sndNxt = start at *
  -- the state the datagram is built in
  generalize state : ({ u with cb.sndNxt := start } : Endpoint) = v at rewind
  have vview : v.view = { u.view with sndNxt := start } := by rw [← state]; rfl
  have dg : t.dgram = v.outputDatagram flags pkt (s.clampRcvWin raw) := by
    rw [dgram, outputSend, rewind, ← window, ← state]
    rfl
  have hdr : t.hdr = _ := (congrArg (fun d => d.hdr.ntoh) dg).trans
    (outputDatagram_hdr v.toConn flags pkt (s.clampRcvWin raw))
  have flagsHdr : t.hdr.flags = flags := congrArg UdtHdr.flags hdr
  have lenHdr : t.hdr.len = (Conn.pktLen pkt).setWidth 16 := congrArg UdtHdr.len hdr
  have lenZero : t.hdr.len = 0 ↔ Conn.pktLen pkt = 0 := by
    rw [lenHdr]
    constructor
    · intro zero
      rw [← pktLen_setWidth pkt, zero]
      rfl
    · intro zero
      rw [zero]
      rfl
  have rcvWin : t.rcvWin = s.clampRcvWin raw := by
    rw [Transmission.rcvWin, Transmission.rawRcvWin, before, rawWin]
    simp only [ne_eq, lenZero]
  have vcore : v.toConn.core = { s.toConn.core with sndNxt := start } := by
    rw [← state]
    exact congrArg (fun c : Core => { c with sndNxt := start }) core
  have vprobing : v.probing = t.forced := by
    rw [Transmission.forced, before, ← probing, ← state]
    rfl
  have after : (u.outputSend flags pkt raw).2.view = { v.view with
      sndNxt := if t.forced then start else start + synLen flags + finLen flags + Conn.pktLen pkt
      sndMax := seqMax (if t.forced then start + Conn.pktLen pkt else
        start + synLen flags + finLen flags + Conn.pktLen pkt) s.cb.sndMax
      sentfin := s.cb.flags.sentfin || (!t.forced && hasFin flags)
      rcvAdv := if 0 < t.rcvWin.toInt then seqMax (s.cb.rcvNxt + t.rcvWin) s.cb.rcvAdv
        else s.cb.rcvAdv
      wire := u.wire ++ [t.dgram] } := by
    have run : (u.outputSend flags pkt raw).2 =
        ((v.outputAdvance flags (Conn.pktLen pkt)).udpOutput t.dgram).outputSent
          (s.clampRcvWin raw) := by
      rw [dg, outputSend, rewind, ← window, ← state]
      rfl
    have advanced := outputAdvance_view v flags (Conn.pktLen pkt)
    have startEq : v.cb.sndNxt = start := by rw [← state]
    have maxEq : v.cb.sndMax = s.cb.sndMax := congrArg Core.sndMax vcore
    have finEq : v.cb.flags.sentfin = s.cb.flags.sentfin := congrArg Core.sentfin vcore
    have advEq : v.cb.rcvAdv = s.cb.rcvAdv := congrArg Core.rcvAdv vcore
    have nxtEq : v.cb.rcvNxt = s.cb.rcvNxt := congrArg Core.rcvNxt vcore
    rw [vprobing, startEq, maxEq, finEq] at advanced
    have adv : (v.outputAdvance flags (Conn.pktLen pkt)).cb.rcvAdv = v.cb.rcvAdv :=
      congrArg (fun w : View => w.rcvAdv) advanced
    have nxt : (v.outputAdvance flags (Conn.pktLen pkt)).cb.rcvNxt = v.cb.rcvNxt :=
      congrArg (fun w : View => w.rcvNxt) advanced
    have wire : (v.outputAdvance flags (Conn.pktLen pkt)).wire = v.wire :=
      congrArg (fun w : View => w.wire) advanced
    have uwire : v.wire = u.wire := by rw [← state]
    rw [run, outputSent_view]
    change { (v.outputAdvance flags (Conn.pktLen pkt)).view with
      wire := (v.outputAdvance flags (Conn.pktLen pkt)).wire ++ [t.dgram]
      rcvAdv := if 0 < (s.clampRcvWin raw).toInt then
        seqMax ((v.outputAdvance flags (Conn.pktLen pkt)).cb.rcvNxt + s.clampRcvWin raw)
          (v.outputAdvance flags (Conn.pktLen pkt)).cb.rcvAdv
        else (v.outputAdvance flags (Conn.pktLen pkt)).cb.rcvAdv } = _
    rw [adv, nxt, wire, uwire, advEq, nxtEq, advanced, rcvWin]
  constructor
  case right =>
    rw [after, vview]
    have same := congrArg View.toCore after
    rw [vview] at same
    change (u.outputSend flags pkt raw).2.toConn.core = _ at same
    rw [same]
  case left =>
    refine ⟨by rw [before], by rw [flagsHdr, flagsEq], ?_, ?_, ?_, ?_, ?_, ?_⟩
    · rw [lenHdr, pktLen_setWidth]
    · have seq : t.hdr.seq = v.outputSeq flags (Conn.pktLen pkt) := congrArg UdtHdr.seq hdr
      have nxt : v.cb.sndNxt = s.toConn.core.rewound flags u.cb.sndNxt := by rw [← state, moved]
      have max : v.cb.sndMax = s.cb.sndMax := congrArg Core.sndMax vcore
      rw [seq, flagsHdr, lenZero, Conn.outputSeq]
      split
      · exact .inl nxt
      · next none =>
          obtain ⟨empty, plain, _⟩ := by simpa only [not_or, not_not] using none
          rw [hasFlag_or, Bool.or_eq_true, not_or, Bool.not_eq_true, Bool.not_eq_true] at plain
          exact .inr ⟨empty, plain.1, plain.2, max⟩
    · have ack : t.hdr.ack = v.cb.rcvNxt := congrArg UdtHdr.ack hdr
      rw [ack]
      exact congrArg Core.rcvNxt vcore
    · rw [rcvWin]
      exact congrArg UdtHdr.win hdr
    · have same : ∀ n, v.composeOptions n = s.composeOptions n := by
        intro n
        rw [← options, ← state]
        rfl
      refine ⟨_, congrArg Datagram.body dg, congrArg UdtHdr.off hdr, ?_⟩
      rw [flagsHdr, same, before]
    · have same := congrArg View.toCore after
      change (u.outputSend flags pkt raw).2.toConn.core = _ at same
      rw [same]
      have vtoCore : v.view.toCore = _ := vcore
      dsimp only
      rw [vtoCore, flagsHdr, moved]
      rfl

theorem outputSelect_spec (s : Endpoint) :
    ∃ u pkt, s.outputSelect (s.outputForce s.canSendBytes) = (pkt, u) ∧ MovedNxt s u ∧
      u.env = s.env ∧ Choice s pkt u.cb.sndNxt := by
  unfold outputSelect
  split
  · next open_ =>
      rcases s.getSndPktLoop_spec (s.outputForce s.canSendBytes) [] s.sk.sndBuf.pkts rfl with
        ⟨none, unfit⟩ | ⟨p, q, data, flagged, selected, same, result⟩
      · exact ⟨s, _, none, .refl s, rfl, .nothing fun _ => unfit⟩
      · refine ⟨_, _, result, ⟨?_, fun _ => rfl, fun _ => rfl, rfl, rfl⟩, rfl,
          .packet open_ selected⟩
        simp only [view, Conn.core, UdtBuf.unflagged, same]
  · next closed =>
      split
      · exact ⟨_, _, rfl, ⟨rfl, fun _ => rfl, fun _ => rfl, rfl, rfl⟩, rfl,
          .closedWindow (not_le.mp closed)⟩
      · exact ⟨s, _, rfl, .refl s, rfl, .nothing fun open_ => absurd open_ closed⟩

theorem movedNxt_leavePersist {s u : Endpoint} (moved : MovedNxt s u)
    (unforced : s.cb.force = false) :
    MovedNxt s { u with cb := u.cb.leavePersist } ∧
      ({ u with cb := u.cb.leavePersist } : Endpoint).cb.sndNxt = u.cb.sndNxt := by
  unfold UdtCb.leavePersist
  split
  · refine ⟨⟨moved.view, moved.window, moved.options, ?_, moved.force⟩, rfl⟩
    simp [Conn.probing, unforced, moved.force]
  · exact ⟨moved, rfl⟩

theorem outputConsume_spec (s : Endpoint) (canSend : Word) :
    (s.outputConsume canSend).cb = s.cb ∧ (s.outputConsume canSend).env = s.env ∧
      ViewPath OnlyTau s.view (s.outputConsume canSend).view := by
  unfold outputConsume
  split
  · obtain ⟨ops, rest, b, _, _, result⟩ := s.consumePendingLoop_spec s.sk.sendOps
    refine ⟨?_, ?_, consumePendingData_path s⟩ <;> rw [consumePendingData, result]
  · exact ⟨rfl, rfl, .refl _⟩

/-- One transmission of a pass, in the state `s` in which its packet was chosen. -/
structure Pass (s : Endpoint) (pkt : Option UdtPacket) (nxt : Word) (t : Transmission)
    (s' : Endpoint) : Prop where
  before : t.before = s.toConn
  choice : Choice s pkt nxt
  sends : Sends s.toConn.core pkt nxt t s'.toConn.core
  view : s'.view = { s.view with
    toCore := s'.toConn.core, wire := s.wire ++ [t.dgram], sent := s.sent ++ [t] }

theorem enterPersist_view (s : Endpoint) : s.enterPersist.view = s.view := by
  unfold enterPersist
  dsimp only
  split <;> rfl

/-- The `send` label as the end of a pass. -/
theorem Pass.of_send {s u : Endpoint} {pkt : Option UdtPacket} {raw stale : Word} {d : Datagram}
    {x : Endpoint} (only : MovedNxt s u) (choice : Choice s pkt u.cb.sndNxt)
    (rawWin : raw = if Conn.pktLen pkt ≠ 0 then stale else s.sk.rcvBuf.acc)
    (run : u.outputSend (u.outputFlags (Conn.pktLen pkt)) pkt raw = (d, x)) :
    Pass s pkt u.cb.sndNxt ⟨s.toConn, stale, d⟩
      { x with sent := x.sent ++ [⟨s.toConn, stale, d⟩] } := by
  obtain ⟨sends, after⟩ := outputSend_spec s u pkt raw ⟨s.toConn, stale, d⟩ only
    (by rw [run]) rfl rawWin
  rw [run] at sends after
  refine ⟨rfl, choice, sends, ?_⟩
  have sent : x.sent = s.sent := by
    have keep := congrArg View.sent after
    rw [only.view] at keep
    exact keep
  have wire : u.wire = s.wire := congrArg View.wire only.view
  change { x.view with sent := x.sent ++ [Transmission.mk s.toConn stale d] } = _
  rw [after, only.view, sent, wire]

theorem outputPass_spec (s : Endpoint) :
    let w := s.outputConsume s.canSendBytes
    (∃ s' pkt nxt, s.outputPass = (none, false, s') ∧ Choice w pkt nxt ∧
        hasSyn w.cb.state.outflags = false ∧ s'.view = { w.view with sndNxt := nxt }) ∨
      ∃ t again s' pkt nxt, s.outputPass = (some t, again, s') ∧ Pass w pkt nxt t s' ∧
        (again = true → w.cb.force = false) := by
  intro w
  obtain ⟨cb, env, _⟩ := s.outputConsume_spec s.canSendBytes
  have canSend : s.canSendBytes = w.canSendBytes := by
    rw [Conn.canSendBytes, Conn.canSendBytes, cb]
  obtain ⟨u, pkt, selected, moved, uenv, choice⟩ := w.outputSelect_spec
  -- leaving persist state keeps everything the datagram depends on
  obtain ⟨u', left, moved', nxt', env'⟩ : ∃ u', u' =
      (if (pkt.isSome && !u.cb.force) = true then { u with cb := u.cb.leavePersist } else u) ∧
      MovedNxt w u' ∧ u'.cb.sndNxt = u.cb.sndNxt ∧ u'.env = w.env := by
    refine ⟨_, rfl, ?_⟩
    split
    · next unforced =>
        have force : w.cb.force = false := by
          rw [Bool.and_eq_true, Bool.not_eq_true'] at unforced
          rw [← moved.force, unforced.2]
        obtain ⟨one, two⟩ := movedNxt_leavePersist moved force
        exact ⟨one, two, uenv⟩
    · exact ⟨moved, rfl, uenv⟩
  have forceOf : ∀ b : Bool, (pkt.isSome && !u.cb.force && b) = true → w.cb.force = false := by
    intro b again
    rw [Bool.and_eq_true, Bool.and_eq_true, Bool.not_eq_true'] at again
    rw [← moved.force, again.1.2]
  rw [← nxt'] at choice
  have passEq : s.outputPass =
      if Conn.pktLen pkt ≠ 0 then
        let r := u'.staleRcvWin.2.outputSend (u'.outputFlags (Conn.pktLen pkt)) pkt u'.staleRcvWin.1
        (some ⟨w.toConn, w.env.staleRcvWin 0, r.1⟩,
          pkt.isSome && !u.cb.force &&
            decide ((Conn.pktLen pkt).toInt < (w.outputForce s.canSendBytes).toInt),
          { r.2 with sent := r.2.sent ++ [⟨w.toConn, w.env.staleRcvWin 0, r.1⟩] })
      else if u'.mustSend (u'.outputFlags (Conn.pktLen pkt)) then
        let r := u'.outputSend (u'.outputFlags (Conn.pktLen pkt)) pkt u'.sk.rcvBuf.acc
        (some ⟨w.toConn, w.env.staleRcvWin 0, r.1⟩,
          pkt.isSome && !u.cb.force &&
            decide ((Conn.pktLen pkt).toInt < (w.outputForce s.canSendBytes).toInt),
          { r.2 with sent := r.2.sent ++ [⟨w.toConn, w.env.staleRcvWin 0, r.1⟩] })
      else if u'.canPersist then (none, false, { u' with cb.rxtshift := 0 }.enterPersist)
      else (none, false, u') := by
    rw [← canSend] at selected
    rw [outputPass, left]
    dsimp only
    rw [selected]
  rw [passEq]
  by_cases long : Conn.pktLen pkt ≠ 0
  case pos =>
    rw [if_pos long]
    have only : MovedNxt w u'.staleRcvWin.2 :=
      ⟨moved'.view, moved'.window, moved'.options, moved'.probing, moved'.force⟩
    have raw : u'.staleRcvWin.1 = if Conn.pktLen pkt ≠ 0 then w.env.staleRcvWin 0
        else w.sk.rcvBuf.acc := by
      rw [if_pos long, ← env']
      rfl
    cases run : u'.staleRcvWin.2.outputSend (u'.outputFlags (Conn.pktLen pkt)) pkt
        u'.staleRcvWin.1 with
    | mk d x => exact .inr ⟨_, _, _, pkt, _, rfl, .of_send only choice raw run, forceOf _⟩
  case neg =>
    rw [if_neg long]
    by_cases must : u'.mustSend (u'.outputFlags (Conn.pktLen pkt)) = true
    case pos =>
      rw [if_pos must]
      have raw : u'.sk.rcvBuf.acc = if Conn.pktLen pkt ≠ 0 then w.env.staleRcvWin 0
          else w.sk.rcvBuf.acc := by
        rw [if_neg long]
        exact congrArg (fun v : View => v.rcvBuf.acc) moved'.view
      cases run : u'.outputSend (u'.outputFlags (Conn.pktLen pkt)) pkt u'.sk.rcvBuf.acc with
      | mk d x => exact .inr ⟨_, _, _, pkt, _, rfl, .of_send moved' choice raw run, forceOf _⟩
    case neg =>
      have noSyn : hasSyn w.cb.state.outflags = false := by
        have state : u'.cb.state = w.cb.state := congrArg (fun v : View => v.state) moved'.view
        rw [Conn.mustSend, hasFlag_or] at must
        simp only [Bool.or_eq_true, not_or, Bool.not_eq_true] at must
        rw [← state]
        exact (u'.toConn.core.outputFlags_syn (u'.cb.sndNxt + Conn.pktLen pkt)).symm.trans must.1.2.1
      rw [if_neg must]
      refine .inl ?_
      split
      · refine ⟨_, pkt, _, rfl, choice, noSyn, ?_⟩
        rw [enterPersist_view]
        exact moved'.view
      · exact ⟨_, pkt, _, rfl, choice, noSyn, moved'.view⟩

theorem Selected.queued {s : Endpoint} {len : Word} {pkts : List UdtPacket} {p q : UdtPacket}
    (selected : s.Selected len pkts p q) :
    q.hdr.seq = p.hdr.seq ∧ q.hdr.len = p.hdr.len ∧ seqGe p.hdr.seq s.cb.sndNxt ∧
      q.unflagged = p.unflagged ∧ p ∈ pkts := by
  have candidate := List.find?_some selected.first
  rw [isCandidate, Bool.and_eq_true, decide_eq_true_eq] at candidate
  have member := List.mem_of_find?_eq_some selected.first
  rcases selected.copy with rfl | rfl
  · exact ⟨rfl, rfl, candidate.1, rfl, member⟩
  · exact ⟨rfl, rfl, candidate.1, rfl, member⟩

theorem Choice.chosen {s : Endpoint} {pkt : Option UdtPacket} {nxt : Word}
    (choice : Choice s pkt nxt) :
    pkt = none ∧ (nxt = s.view.sndNxt ∨ nxt = s.view.sndUna) ∨
      ∃ p : UdtPacket, pkt = some p ∧ nxt = p.hdr.seq ∧ seqGe p.hdr.seq s.view.sndNxt ∧
        p.unflagged ∈ s.view.sndBuf.pkts := by
  cases choice with
  | nothing => exact .inl ⟨rfl, .inl rfl⟩
  | closedWindow => exact .inl ⟨rfl, .inr rfl⟩
  | packet _ selected =>
      obtain ⟨seq, _, later, same, member⟩ := selected.queued
      refine .inr ⟨_, rfl, seq.symm, by rw [seq]; exact later, ?_⟩
      rw [same]
      exact List.mem_map_of_mem member

theorem Choice.path {s : Endpoint} {pkt : Option UdtPacket} {nxt : Word}
    (choice : Choice s pkt nxt) (noSyn : hasSyn s.cb.state.outflags = false) :
    ViewPath OnlyTau s.view { s.view with sndNxt := nxt } := by
  cases choice with
  | nothing => exact .refl _
  | closedWindow => exact (Step.rewind (v := s.view)).path
  | @packet p q _ selected =>
      obtain ⟨_, _, later, _, member⟩ := selected.queued
      have queued : p.unflagged ∈ s.view.sndBuf.pkts :=
        List.mem_map_of_mem member
      exact (Step.skip queued later noSyn).path

theorem Pass.real {s : Endpoint} {pkt : Option UdtPacket} {nxt : Word} {t : Transmission}
    {s' : Endpoint} (pass : Pass s pkt nxt t s') : t.Real :=
  ⟨s, pkt, nxt, _, pass.before, pass.choice, pass.sends⟩

theorem Pass.path {s : Endpoint} {pkt : Option UdtPacket} {nxt : Word} {t : Transmission}
    {s' : Endpoint} (pass : Pass s pkt nxt t s') (alive : s.cb.state ≠ .closed) :
    ViewPath OnlyTau s.view s'.view := by
  rw [pass.view]
  exact (Step.transmit pass.choice.chosen alive pass.sends pass.real).path

/-- A pass changes neither the state nor what the user or the peer may not touch. -/
theorem outputPass_path (s : Endpoint) (alive : s.cb.state ≠ .closed) :
    ViewPath OnlyTau s.view s.outputPass.2.2.view ∧ s.outputPass.2.2.cb.state = s.cb.state := by
  obtain ⟨cb, _, consumed⟩ := s.outputConsume_spec s.canSendBytes
  have alive' : (s.outputConsume s.canSendBytes).cb.state ≠ .closed := by rwa [cb]
  rcases s.outputPass_spec with ⟨s', pkt, nxt, run, choice, noSyn, view⟩ |
    ⟨t, again, s', pkt, nxt, run, pass, _⟩
  · rw [run, view]
    refine ⟨consumed.trans (choice.path noSyn), ?_⟩
    rw [← cb]
    exact congrArg (fun v : View => v.state) view
  · rw [run]
    refine ⟨consumed.trans (pass.path alive'), ?_⟩
    rw [← cb]
    exact congrArg Core.state pass.sends.moved

theorem outputLoop_path (clamp : Nat) (s : Endpoint) (alive : s.cb.state ≠ .closed) :
    ViewPath OnlyTau s.view (s.outputLoop clamp).2.view := by
  induction clamp generalizing s with
  | zero =>
      rw [outputLoop]
      exact .refl _
  | succ clamp ih =>
      obtain ⟨path, state⟩ := s.outputPass_path alive
      rw [outputLoop]
      generalize s.outputPass = pass at path state ⊢
      obtain ⟨t, again, s'⟩ := pass
      cases again with
      | false => exact path
      | true => exact path.trans (ih s' (by rwa [state]))

/-- The log gains what the passes sent. -/
theorem outputLoop_sent (clamp : Nat) (s : Endpoint) :
    (s.outputLoop clamp).2.sent = s.sent ++ (s.outputLoop clamp).1 := by
  induction clamp generalizing s with
  | zero => simp [outputLoop]
  | succ clamp ih =>
      have pass : s.outputPass.2.2.sent = s.sent ++ s.outputPass.1.toList := by
        have before : (s.outputConsume s.canSendBytes).sent = s.sent := by
          unfold outputConsume
          split
          · obtain ⟨ops, rest, b, _, _, result⟩ := s.consumePendingLoop_spec s.sk.sendOps
            rw [consumePendingData, result]
          · rfl
        rcases s.outputPass_spec with ⟨s', pkt, nxt, run, _, _, view⟩ |
          ⟨t, again, s', pkt, nxt, run, pass, _⟩
        · rw [run]
          have same : s'.sent = (s.outputConsume s.canSendBytes).sent := congrArg View.sent view
          simp [same, before]
        · rw [run]
          have more := congrArg View.sent pass.view
          rw [show s'.sent = _ from more, before]
          rfl
      rw [outputLoop]
      generalize s.outputPass = result at pass ⊢
      obtain ⟨t, again, s'⟩ := result
      cases again with
      | false => exact pass
      | true =>
          have rest := ih s'
          dsimp only at pass rest ⊢
          generalize s'.outputLoop clamp = more at rest ⊢
          obtain ⟨ts, last⟩ := more
          simp only [if_true] at rest ⊢
          rw [rest, pass, List.append_assoc]

theorem outputIdle_view (s : Endpoint) : s.outputIdle.view = s.view := by
  unfold outputIdle UdtCb.slowStart
  split
  · split <;> rfl
  · rfl

theorem output_path (s : Endpoint) : ViewPath OnlyTau s.view s.output.view := by
  unfold output
  split
  · exact .refl _
  · next alive =>
      have state : s.outputIdle.cb.state = s.cb.state :=
        congrArg (fun v : View => v.state) s.outputIdle_view
      have path := outputLoop_path sendPacketsClamp s.outputIdle (by rwa [state])
      rw [s.outputIdle_view] at path
      have real : OutputCall.Real ⟨s.toConn, (s.outputIdle.outputLoop sendPacketsClamp).1,
          (s.outputIdle.outputLoop sendPacketsClamp).2.toConn⟩ := ⟨s, alive, rfl, rfl, rfl⟩
      have logged := s.outputIdle.outputLoop_sent sendPacketsClamp
      generalize s.outputIdle.outputLoop sendPacketsClamp = result at path real logged ⊢
      refine path.trans (Step.record real ?_).path
      intro t member
      change t ∈ result.2.sent
      rw [logged]
      exact List.mem_append_right _ member

end Endpoint

end UdtBoost
