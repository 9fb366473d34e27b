import UdtBoost.Sender

/-! What `output` does to the sending half: it appends, marks and sends, and every number it leaves
behind is inside what was queued. -/
namespace UdtBoost

namespace Endpoint

variable {s t u : Endpoint} {pkt : Option UdtPacket}

/-- The packet of a segment lies in the queue, where the segment starts. -/
def Fits (x : Sender) (pkt : Option UdtPacket) : Prop :=
  ∀ p, pkt = some p → x.nxt = p.hdr.seq ∧ 0 < p.span ∧ p.place x.una + p.span ≤ x.bytes

theorem fits_none (x : Sender) : Fits x none := by
  intro p none
  contradiction

theorem Selects.laid (selects : s.Selects pkt u) (laid : s.sender.Laid) :
    u.sender.Laid ∧ Fits u.sender pkt ∧ u.sender.reach = s.sender.reach := by
  have half := laid.half
  have most := s.sender.bytes_le
  have max := laid.max
  have inside : ∀ {front p back}, s.sk.sndBuf.pkts = front ++ p :: back →
      0 < p.span ∧ p.place s.cb.sndUna + p.span ≤ s.sender.bytes := by
    intro front p back queue
    have bounds := laid.queue.mem (q := p) (by
      change p ∈ s.sk.sndBuf.pkts
      rw [queue]
      simp)
    exact bounds.2
  cases selects with
  | nothing => exact ⟨laid, fits_none _, rfl⟩
  | closedWindow =>
      refine ⟨laid.rewind (a := s.cb.sndUna) ?_, fits_none _, rfl⟩
      exact (Sender.off_una s.sender).trans_le (Nat.zero_le _)
  | @fresh front p back queue skipped candidate new =>
      obtain ⟨some_, ends⟩ := inside queue
      have start : s.sender.off p.hdr.seq ≤ s.sender.reach := by
        change p.place s.cb.sndUna ≤ _
        omega
      refine ⟨laid.rewind start, ?_, rfl⟩
      rintro _ ⟨⟩
      exact ⟨rfl, some_, ends⟩
  | @again front p back queue skipped candidate old =>
      obtain ⟨some_, ends⟩ := inside queue
      have start : s.sender.off p.hdr.seq ≤ s.sender.reach := by
        change p.place s.cb.sndUna ≤ _
        omega
      have below : s.sender.off p.hdr.seq < s.sender.off s.sender.max :=
        (Sender.seqLt_iff_off (by omega) (by omega)).mp old
      have plain : hasRexmt p.hdr.flags = false := by
        unfold isCandidate at candidate
        simpa using (Bool.and_eq_true_iff.mp candidate).2
      refine ⟨(laid.mark queue plain below).rewind start, ?_, rfl⟩
      rintro _ ⟨⟩
      exact ⟨rfl, some_, ends⟩

theorem ready_sender (u : Endpoint) (pkt : Option UdtPacket) :
    ∃ t, (u.ready pkt).sender = { u.sender with tPersist := t } ∧ (t = 0 ∨ t = u.cb.tPersist) := by
  unfold ready UdtCb.leavePersist
  split
  · split
    · exact ⟨0, rfl, .inl rfl⟩
    · exact ⟨u.cb.tPersist, rfl, .inr rfl⟩
  · exact ⟨u.cb.tPersist, rfl, .inr rfl⟩

/-- The FIN stays in the flags only behind all data. -/
theorem sendFlags_fin {u : Endpoint} (fin : hasFin (u.sendFlags pkt) = true) :
    u.cb.state.isClosing ∧
      ¬ seqLt (u.cb.sndNxt + Conn.pktLen pkt) (u.sk.sndBuf.seq + u.sk.pendingData) := by
  unfold sendFlags Conn.outputFlags at fin
  dsimp only at fin
  split at fin
  · have never : ∀ q : TcpState, hasFin (q.outflags &&& ~~~UdtHdr.TH_FIN) = false := by
      intro q
      cases q <;> decide
    rw [never] at fin
    contradiction
  · next behind => exact ⟨(TcpState.hasFin_outflags _).mp fin, behind⟩

theorem sendFlags_syn (u : Endpoint) (pkt : Option UdtPacket) :
    hasSyn (u.sendFlags pkt) = hasSyn u.cb.state.outflags := by
  unfold sendFlags Conn.outputFlags
  dsimp only
  split
  · cases u.cb.state <;> decide
  · rfl

theorem pktLen_toNat (p : UdtPacket) : (Conn.pktLen (some p)).toNat = p.span := by
  change (p.hdr.len.setWidth 32).toNat = _
  rw [BitVec.toNat_setWidth_of_le (by decide)]
  rfl

/-- Where a segment starts when no SYN is sent. -/
theorem rewound_plain {u : Endpoint} {flags : UChar} (noSyn : hasSyn flags = false) (nxt : Word) :
    u.toConn.core.rewound flags nxt =
      if hasFin flags = true ∧ u.cb.flags.sentfin = true ∧ nxt = u.cb.sndMax then nxt - 1 else nxt := by
  simp [Core.rewound, noSyn, Conn.core]

/-- Where a segment of the queue ends. -/
theorem Fits.ends {u : Endpoint} (fits : Fits u.sender pkt) (laid : u.sender.Laid) :
    u.sender.off (u.cb.sndNxt + Conn.pktLen pkt) =
        u.sender.off u.cb.sndNxt + (Conn.pktLen pkt).toNat ∧
      u.sender.off u.cb.sndNxt + (Conn.pktLen pkt).toNat ≤ u.sender.reach ∧
      (0 < (Conn.pktLen pkt).toNat →
        u.sender.off u.cb.sndNxt + (Conn.pktLen pkt).toNat ≤ u.sender.bytes) := by
  have half := laid.half
  have inside : u.sender.off u.cb.sndNxt + (Conn.pktLen pkt).toNat ≤ u.sender.reach ∧
      (0 < (Conn.pktLen pkt).toNat →
        u.sender.off u.cb.sndNxt + (Conn.pktLen pkt).toNat ≤ u.sender.bytes) := by
    cases pkt with
    | none => exact ⟨laid.nxt, fun some_ => absurd some_ (Nat.lt_irrefl 0)⟩
    | some p =>
        obtain ⟨start, some_, inside⟩ := fits p rfl
        have start : u.sender.off u.cb.sndNxt = p.place u.cb.sndUna := congrArg u.sender.off start
        have inside : p.place u.cb.sndUna + p.span ≤ u.sender.bytes := inside
        rw [pktLen_toNat, start]
        exact ⟨inside.trans u.sender.bytes_le, fun _ => inside⟩
  exact ⟨toNat_add_sub' (by unfold Sender.off at *; omega), inside⟩

/-- A segment with our FIN ends at the FIN's number, sent before or not. -/
theorem fin_start {u : Endpoint} (laid : u.sender.Laid) (fits : Fits u.sender pkt)
    (fin : hasFin (u.sendFlags pkt) = true) :
    u.toConn.core.rewound (u.sendFlags pkt) u.cb.sndNxt + Conn.pktLen pkt = u.sk.sndBuf.seq ∧
      u.sender.off (u.toConn.core.rewound (u.sendFlags pkt) u.cb.sndNxt) ≤ u.sender.reach ∧
      UdtBuf.opsLen u.sk.sendOps = 0 := by
  obtain ⟨closing, behind⟩ := sendFlags_fin fin
  have noSyn : hasSyn (u.sendFlags pkt) = false := by
    rw [sendFlags_syn]
    rcases closing with state | state | state <;> rw [state] <;> decide
  have unacked : u.sender.sentfin = true → u.sender.reach ≠ 0 :=
    fun sent => (laid.fin sent).2.2.2.2 closing
  have seq : u.sender.off u.sk.sndBuf.seq = u.sender.bytes := laid.off_seq unacked
  have pending : u.sk.pendingData.toNat = UdtBuf.opsLen u.sk.sendOps := laid.pending
  have room : u.sender.bytes + UdtBuf.opsLen u.sk.sendOps < maxReach := laid.room
  have half := laid.half
  have nxt : u.sender.off u.cb.sndNxt ≤ u.sender.reach := laid.nxt
  have least := u.sender.reach_le
  have bound : maxReach = 2147483647 := rfl
  obtain ⟨last, within, inside⟩ := fits.ends laid
  have queued : u.sender.off (u.sk.sndBuf.seq + u.sk.pendingData) =
      u.sender.bytes + UdtBuf.opsLen u.sk.sendOps := by
    rw [← seq, ← pending]
    exact toNat_add_sub' (by unfold Sender.off at *; omega)
  rw [Sender.seqLt_iff_off (x := u.sender) (by omega) (by omega), last, queued] at behind
  rw [rewound_plain noSyn]
  by_cases again : u.cb.flags.sentfin = true ∧ u.cb.sndNxt = u.cb.sndMax
  · obtain ⟨sent, top⟩ := again
    rw [if_pos ⟨fin, sent, top⟩]
    obtain ⟨all, none, _⟩ := laid.fin sent
    have all : u.cb.sndMax = u.sk.sndBuf.seq + if u.cb.flags.sentfin then 1 else 0 := all
    have end_ : u.cb.sndNxt = u.sk.sndBuf.seq + 1 := by rw [top, all, if_pos sent]
    have whole : u.sender.off u.cb.sndNxt = u.sender.reach := by
      rw [top, all]
      rfl
    have ahead := unacked sent
    have one : u.sender.reach = u.sender.bytes + 1 := by
      unfold Sender.bytes
      rw [show u.sender.sentfin = true from sent, if_pos rfl]
      omega
    have nothing : Conn.pktLen pkt = 0 := by
      apply BitVec.eq_of_toNat_eq
      change _ = 0
      omega
    rw [nothing, end_, BitVec.add_sub_cancel, seq]
    exact ⟨by simp, u.sender.bytes_le, none⟩
  · rw [if_neg fun rewound => again rewound.2]
    have exact_ : u.sender.off u.cb.sndNxt + (Conn.pktLen pkt).toNat = u.sender.bytes ∧
        UdtBuf.opsLen u.sk.sendOps = 0 := by
      cases sent : u.sender.sentfin with
      | false =>
          have same := Sender.reach_of_unsent sent
          omega
      | true =>
          obtain ⟨all, none, _⟩ := laid.fin sent
          have top : u.sender.off u.cb.sndMax = u.sender.reach := congrArg u.sender.off all
          have other : u.sender.off u.cb.sndNxt ≠ u.sender.off u.cb.sndMax :=
            fun same => again ⟨sent, Sender.off_eq_iff.mp same⟩
          have none : UdtBuf.opsLen u.sk.sendOps = 0 := none
          omega
    refine ⟨(Sender.off_eq_iff (x := u.sender)).mp ?_, nxt, exact_.2⟩
    rw [last, seq, exact_.1]

/-- Sending does not enter persist state. -/
theorem transmit_persist {u : Endpoint} (off : u.cb.tPersist = 0) (pkt : Option UdtPacket) (raw : Word)
    (d : Transmission) : (u.transmit pkt raw d).cb.tPersist = 0 := by
  have armed : ∀ x : Endpoint, x.cb.tPersist = 0 → x.armRexmt.cb.tPersist = 0 := by
    intro x off
    unfold armRexmt UdtCb.leavePersist
    split
    · split
      · rfl
      · exact off
    · exact off
  have advanced : ∀ (x : Endpoint) (flags : UChar) (len : Word), x.cb.tPersist = 0 →
      ((x.outputRewind flags).outputAdvance flags len).cb.tPersist = 0 := by
    intro x flags len off
    rw [outputRewind_eq]
    unfold outputAdvance
    split
    · rw [advanceNxt_eq]
      obtain ⟨rtt, rtseq, raised⟩ := raiseSndMax_eq
        ({ x with
          cb.sndNxt := x.toConn.core.rewound flags x.cb.sndNxt + synLen flags + finLen flags + len
          cb.flags.sentfin := x.cb.flags.sentfin || hasFin flags } : Endpoint)
        (x.toConn.core.rewound flags x.cb.sndNxt)
      rw [raised]
      exact armed _ off
    · split <;> exact off
  unfold transmit outputSend outputSent
  dsimp only
  split <;> exact advanced u _ _ off

theorem transmit_sender (u : Endpoint) (pkt : Option UdtPacket) (raw : Word) (d : Transmission) :
    ∃ t, (u.transmit pkt raw d).sender =
        { u.sender with
          nxt := u.sendNxt (u.sendFlags pkt) (Conn.pktLen pkt)
          max := seqMax (u.sendEnd (u.sendFlags pkt) (Conn.pktLen pkt)) u.cb.sndMax
          sentfin := u.cb.flags.sentfin || (!u.probing && hasFin (u.sendFlags pkt))
          tPersist := t } ∧
      (u.cb.tPersist = 0 → t = 0) := by
  have off := fun zero => u.transmit_persist zero pkt raw d
  obtain ⟨_, _, _, tPersist, _, _, _, result⟩ := u.transmit_eq pkt raw d
  rw [result] at off ⊢
  exact ⟨tPersist, rfl, off⟩

theorem transmit_laid {u : Endpoint} (laid : u.sender.Laid) (fits : Fits u.sender pkt) (raw : Word)
    (d : Transmission) : (u.transmit pkt raw d).sender.Laid ∧
      (u.transmit pkt raw d).sender.una = u.sender.una ∧
      u.sender.reach ≤ (u.transmit pkt raw d).sender.reach := by
  obtain ⟨t, result, _⟩ := u.transmit_sender pkt raw d
  have noSyn : hasSyn (u.sendFlags pkt) = false := by
    rw [sendFlags_syn, Bool.eq_false_iff]
    intro syn
    exact laid.open_ (.inr ((TcpState.hasSyn_outflags _).mp syn))
  have nxt : u.sender.off u.cb.sndNxt ≤ u.sender.reach := laid.nxt
  unfold sendNxt sendEnd at result
  cases fin : hasFin (u.sendFlags pkt) with
  | true =>
      obtain ⟨start, inside, none⟩ := fin_start laid fits fin
      have closing := (sendFlags_fin fin).1
      have last : u.sender.off u.sk.sndBuf.seq = u.sender.bytes :=
        laid.off_seq fun sent => (laid.fin sent).2.2.2.2 closing
      generalize u.toConn.core.rewound (u.sendFlags pkt) u.cb.sndNxt = first at *
      cases probe : u.probing with
      | true =>
          rw [probe, if_pos rfl, if_pos rfl, start, Bool.not_true, Bool.false_and, Bool.or_false]
            at result
          rw [result]
          exact ⟨laid.advance inside (by rw [last]; exact u.sender.bytes_le), rfl, Nat.le_refl _⟩
      | false =>
          have whole : first + (synLen (u.sendFlags pkt) + finLen (u.sendFlags pkt) +
              Conn.pktLen pkt) = u.sk.sndBuf.seq + 1 := by
            have counted : synLen (u.sendFlags pkt) + finLen (u.sendFlags pkt) = 1 := by
              rw [synLen, finLen, noSyn, fin]
              rfl
            rw [counted, ← start, BitVec.add_comm 1, BitVec.add_assoc]
          rw [probe, if_neg Bool.false_ne_true, if_neg Bool.false_ne_true, whole, fin, Bool.not_false,
            Bool.true_and, Bool.or_true] at result
          rw [result]
          exact ⟨(laid.finish closing none).1, rfl, (laid.finish closing none).2⟩
  | false =>
      have first : u.toConn.core.rewound (u.sendFlags pkt) u.cb.sndNxt = u.cb.sndNxt := by
        rw [rewound_plain noSyn, if_neg (by simp [fin])]
      obtain ⟨last, within, _⟩ := fits.ends laid
      have whole : u.cb.sndNxt + (if u.probing then Conn.pktLen pkt else
          synLen (u.sendFlags pkt) + finLen (u.sendFlags pkt) + Conn.pktLen pkt) =
          u.cb.sndNxt + Conn.pktLen pkt := by
        rw [synLen, finLen, noSyn, fin]
        split <;> simp
      rw [first, whole, fin, Bool.and_false, Bool.or_false] at result
      rw [result]
      refine ⟨laid.advance ?_ (last ▸ within), rfl, Nat.le_refl _⟩
      split
      · exact nxt
      · exact last ▸ within

/-- What one block of `output` leaves of an open connection's numbers. -/
theorem Output.laid (block : Output s t) (laid : s.sender.Laid) :
    t.sender.Laid ∧ s.sender.reach ≤ t.sender.reach := by
  have chosen : ∀ {pkt u}, s.Selects pkt u →
      (u.ready pkt).sender.Laid ∧ Fits (u.ready pkt).sender pkt ∧
        (u.ready pkt).sender.reach = s.sender.reach := by
    intro pkt u selects
    obtain ⟨laid, fits, reach⟩ := selects.laid laid
    obtain ⟨tPersist, ready, _⟩ := u.ready_sender pkt
    rw [ready]
    exact ⟨laid.persist tPersist, fits, reach⟩
  cases block with
  | idle =>
      have same : s.outputIdle.sender = s.sender := by
        unfold outputIdle UdtCb.slowStart
        split
        · split <;> rfl
        · rfl
      rw [same]
      exact ⟨laid, Nat.le_refl _⟩
  | consume =>
      obtain ⟨ops, rest, b, queue, appended, result⟩ := s.consumePendingData_spec
      rw [result]
      exact laid.consume s.cb.maxseg.isLt queue appended
  | @send u canSend raw pkt env d alive select must before dgram =>
      obtain ⟨laid, fits, reach⟩ := chosen (outputSelect_selects select)
      obtain ⟨after, _, grown⟩ := transmit_laid (u := { u.ready pkt with env }) laid fits raw d
      exact ⟨after, reach.symm.trans_le grown⟩
  | @persist u canSend pkt select can =>
      obtain ⟨laid, _, reach⟩ := chosen (outputSelect_selects select)
      obtain ⟨tPersist, _, result⟩ := enterPersist_eq { u.ready pkt with cb.rxtshift := 0 }
      rw [result]
      exact ⟨laid.persist tPersist, reach.symm.le⟩
  | @wait u canSend pkt select =>
      obtain ⟨laid, _, reach⟩ := chosen (outputSelect_selects select)
      exact ⟨laid, reach.symm.le⟩
  | record => exact ⟨laid, Nat.le_refl _⟩

/-- A segment sent before the connection is open is a SYN, or moves nothing. -/
theorem transmit_fresh {u : Endpoint} (fresh : u.sender.Fresh)
    (raw : Word) (d : Transmission) : (u.transmit none raw d).sender.Fresh ∧
      (u.cb.state = .synSent ∨ u.cb.state = .synReceived →
        (u.transmit none raw d).cb.sndNxt = 1 ∧ (u.transmit none raw d).cb.sndMax = 1) := by
  obtain ⟨t, result, off⟩ := u.transmit_sender none raw d
  have una := fresh.una
  have max := fresh.max
  have nxt := fresh.nxt
  have iss : u.cb.iss = 0 := fresh.iss
  have calm : u.probing = false := (u.not_probing_iff).mpr (.inr fresh.tPersist)
  have noFin : hasFin (u.sendFlags none) = false := by
    rw [Bool.eq_false_iff]
    intro fin
    have closing := (sendFlags_fin fin).1
    have state : u.cb.state = .closed ∨ u.cb.state.inHandshake := fresh.state
    rcases closing with q | q | q <;> rw [q] at state <;> revert state <;> decide
  have off := off fresh.tPersist
  subst off
  unfold sendNxt sendEnd at result
  rw [calm, noFin, if_neg Bool.false_ne_true, if_neg Bool.false_ne_true, Bool.and_false,
    Bool.or_false] at result
  cases syn : hasSyn (u.sendFlags none) with
  | true =>
      have start : u.toConn.core.rewound (u.sendFlags none) u.cb.sndNxt = 0 := by
        simp [Core.rewound, syn, noFin, Conn.core, iss]
      have whole : (0 : Word) + (synLen (u.sendFlags none) + finLen (u.sendFlags none) +
          Conn.pktLen none) = 1 := by
        rw [synLen, finLen, syn, noFin]
        rfl
      have raised : seqMax 1 u.cb.sndMax = 1 := by
        rcases seqMax_cases 1 u.cb.sndMax with ⟨same, _⟩ | ⟨same, below⟩
        · exact same
        · rw [same]
          rw [seqLe_iff] at below
          have max : u.cb.sndMax.toNat ≤ 1 := max
          bv_omega
      rw [start, whole, raised] at result
      refine ⟨?_, fun _ => ⟨congrArg Sender.nxt result, congrArg Sender.max result⟩⟩
      rw [result]
      exact { fresh with una := una.trans max, max := Nat.le_refl 1, nxt := Nat.le_refl 1, tPersist := rfl }
  | false =>
      have start : u.toConn.core.rewound (u.sendFlags none) u.cb.sndNxt = u.cb.sndNxt := by
        simp [Core.rewound, syn, noFin]
      have whole : u.cb.sndNxt + (synLen (u.sendFlags none) + finLen (u.sendFlags none) +
          Conn.pktLen none) = u.cb.sndNxt := by
        rw [synLen, finLen, syn, noFin]
        simp [Conn.pktLen]
      rw [start, whole] at result
      refine ⟨?_, fun handshake => ?_⟩
      · rw [result]
        rcases seqMax_cases u.cb.sndNxt u.cb.sndMax with ⟨same, above⟩ | ⟨same, _⟩
        · rw [same]
          have un : u.cb.sndUna.toNat ≤ u.cb.sndMax.toNat := una
          have mx : u.cb.sndMax.toNat ≤ 1 := max
          have nx : u.cb.sndNxt.toNat ≤ 1 := nxt
          rw [seqGt_iff] at above
          have up : u.cb.sndUna.toNat ≤ u.cb.sndNxt.toNat := by bv_omega
          exact { fresh with una := up, max := nx, nxt := nx, tPersist := rfl }
        · rw [same]
          exact { fresh with tPersist := rfl }
      · rw [sendFlags_syn] at syn
        exact absurd ((TcpState.hasSyn_outflags _).mpr handshake) (by simp [syn])

/-- `m_snd_nxt` and `m_snd_max` as they are, or both right after our SYN. -/
def Synced (s t : Endpoint) : Prop :=
  t.cb.sndNxt = s.cb.sndNxt ∧ t.cb.sndMax = s.cb.sndMax ∨ t.cb.sndNxt = 1 ∧ t.cb.sndMax = 1

theorem Synced.trans (first : Synced s t) (second : Synced t u) : Synced s u := by
  rcases second with ⟨nxt, max⟩ | sent
  · rcases first with ⟨nxt', max'⟩ | ⟨nxt', max'⟩
    · exact .inl ⟨nxt.trans nxt', max.trans max'⟩
    · exact .inr ⟨nxt.trans nxt', max.trans max'⟩
  · exact .inr sent

theorem selects_fresh (selects : s.Selects pkt u) (fresh : s.sender.Fresh) :
    pkt = none ∧ u.sender.Fresh := by
  have empty : s.sk.sndBuf.pkts = [] := fresh.pkts
  cases selects with
  | nothing => exact ⟨rfl, fresh⟩
  | closedWindow => exact ⟨rfl, { fresh with nxt := fresh.una.trans fresh.max }⟩
  | fresh queue => simp [empty] at queue
  | again queue => simp [empty] at queue

/-- What one block of `output` does before the connection is open. -/
theorem Output.fresh (block : Output s t) (fresh : s.sender.Fresh) : t.sender.Fresh ∧
    (s.cb.state = .synSent ∨ s.cb.state = .synReceived → Synced s t) := by
  have chosen : ∀ {pkt u}, s.Selects pkt u → pkt = none ∧ (u.ready pkt).sender.Fresh := by
    intro pkt u selects
    obtain ⟨rfl, fresh⟩ := selects_fresh selects fresh
    exact ⟨rfl, fresh⟩
  have same : ∀ {x : Endpoint}, x.sender = s.sender → x.sender.Fresh ∧
      (s.cb.state = .synSent ∨ s.cb.state = .synReceived → Synced s x) := by
    intro x same
    refine ⟨by rwa [same], fun _ => .inl ⟨congrArg Sender.nxt same, congrArg Sender.max same⟩⟩
  have speaks : ∀ {u : Endpoint}, u.cb.state = s.cb.state →
      s.cb.state = .synSent ∨ s.cb.state = .synReceived →
      u.mustSend (u.sendFlags none) = true := by
    intro u state handshake
    have syn : hasFlag (u.sendFlags none) (UdtHdr.TH_SYN ||| UdtHdr.TH_RST) = true := by
      rw [hasFlag_or, Bool.or_eq_true]
      left
      change hasSyn (u.sendFlags none) = true
      rw [sendFlags_syn, state]
      exact (TcpState.hasSyn_outflags _).mpr handshake
    simp [Conn.mustSend, syn]
  cases block with
  | idle =>
      refine same ?_
      unfold outputIdle UdtCb.slowStart
      split
      · split <;> rfl
      · rfl
  | consume =>
      obtain ⟨ops, rest, b, queue, appended, result⟩ := s.consumePendingData_spec
      have none : s.sk.sendOps = [] := fresh.ops
      rw [none] at queue
      obtain ⟨rfl, rfl⟩ := List.append_eq_nil_iff.mp queue.symm
      obtain rfl := Option.some.inj appended
      refine same ?_
      rw [result]
      change { s.sender with ops := [], pending := s.sk.pendingData - 0 } = s.sender
      rw [← none]
      simp [sender]
  | @send u canSend raw pkt env d alive select must before dgram =>
      have selects := outputSelect_selects select
      obtain ⟨rfl, ready⟩ := chosen selects
      have state : (u.ready none).cb.state = s.cb.state :=
        congrArg Steady.state (ready_steady selects)
      have sent := transmit_fresh (u := { u.ready none with env }) ready raw d
      refine ⟨sent.1, fun handshake => .inr (sent.2 ?_)⟩
      rwa [← state] at handshake
  | @persist u canSend pkt select can quiet =>
      have selects := outputSelect_selects select
      obtain ⟨rfl, ready⟩ := chosen selects
      have pending : (u.ready none).sk.pendingData = 0 := ready.pending
      have cc : (u.ready none).sk.sndBuf.cc = 0 := ready.cc
      simp [Conn.canPersist, UdtSocket.totalBufferSize, pending, cc] at can
  | @wait u canSend pkt select quiet =>
      have selects := outputSelect_selects select
      obtain ⟨rfl, ready⟩ := chosen selects
      have state : (u.ready none).cb.state = s.cb.state :=
        congrArg Steady.state (ready_steady selects)
      refine ⟨ready, fun handshake => ?_⟩
      exact absurd (speaks state handshake) (by simp [quiet.2])
  | record => exact same rfl

end Endpoint

end UdtBoost
