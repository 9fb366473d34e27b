import UdtBoost.Session

/-! `m_last_error` is never cleared, and `async_receive` looks at it before it looks at `rcv_buf`. What
nobody was waiting for when it was set, the FIN of the peer included, stays in `rcv_buf` for good. -/
namespace UdtBoost

namespace Endpoint

variable {s t : Endpoint} {bytes : List UChar}

/-- No more bytes are given to the user. -/
structure Deaf (bytes : List UChar) (s : Endpoint) : Prop where
  failed : s.cb.lastError ≠ .succeed
  empty : s.sk.recvOps = []
  given : s.receivedBytes = bytes

theorem Deaf.keep (deaf : s.Deaf bytes) (error : t.cb.lastError = s.cb.lastError)
    (ops : t.sk.recvOps = s.sk.recvOps) (posted : t.posted = s.posted) : t.Deaf bytes where
  failed := error ▸ deaf.failed
  empty := ops.trans deaf.empty
  given := by rw [receivedBytes, posted]; exact deaf.given

/-- Completions other than those of receive operations may be posted. -/
theorem Deaf.silent (deaf : s.Deaf bytes) {c : List Completion} (none : ∀ x ∈ c, x.receivedBytes = [])
    (error : t.cb.lastError = s.cb.lastError) (ops : t.sk.recvOps = s.sk.recvOps)
    (posted : t.posted = s.posted ++ c) : t.Deaf bytes where
  failed := error ▸ deaf.failed
  empty := ops.trans deaf.empty
  given := by
    rw [receivedBytes, posted, List.flatMap_append, List.flatMap_eq_nil_iff.mpr none, List.append_nil]
    exact deaf.given

theorem Deaf.error (deaf : s.Deaf bytes) (failed : t.cb.lastError ≠ .succeed)
    (ops : t.sk.recvOps = s.sk.recvOps) (posted : t.posted = s.posted) : t.Deaf bytes where
  failed := failed
  empty := ops.trans deaf.empty
  given := by rw [receivedBytes, posted]; exact deaf.given

theorem sends_silent (ops : List SendOperation) (e : UdtError) (n : SendOperation → Nat) :
    ∀ x ∈ ops.map fun op => Completion.sent op e (n op), x.receivedBytes = [] := by
  intro x member
  obtain ⟨op, _, rfl⟩ := List.mem_map.mp member
  rfl

theorem Deaf.selects {u : Endpoint} {pkt : Option UdtPacket} (deaf : s.Deaf bytes)
    (selects : s.Selects pkt u) : (u.ready pkt).Deaf bytes := by
  obtain ⟨tPersist, rxtshift, result⟩ := u.ready_eq pkt
  rw [result]
  cases selects <;> exact deaf.keep rfl rfl rfl

theorem Deaf.output (deaf : s.Deaf bytes) (block : Output s t) : t.Deaf bytes := by
  cases block with
  | idle =>
      unfold outputIdle UdtCb.slowStart
      split
      · split <;> exact deaf.keep rfl rfl rfl
      · exact deaf.keep rfl rfl rfl
  | consume =>
      obtain ⟨ops, rest, b, _, _, result⟩ := s.consumePendingData_spec
      rw [result]
      exact deaf.silent (sends_silent ops _ _) rfl rfl rfl
  | @send u canSend raw pkt env t alive select must before dgram =>
      have ready := deaf.selects (outputSelect_selects select)
      obtain ⟨_, _, _, _, _, _, _, result⟩ := transmit_eq { u.ready pkt with env } pkt raw t
      rw [result]
      exact ready.keep rfl rfl rfl
  | @persist u canSend pkt select can =>
      have ready := deaf.selects (outputSelect_selects select)
      obtain ⟨tPersist, shift, result⟩ := enterPersist_eq { u.ready pkt with cb.rxtshift := 0 }
      rw [result]
      exact ready.keep rfl rfl rfl
  | wait select => exact deaf.selects (outputSelect_selects select)
  | record => exact deaf.keep rfl rfl rfl

/-- Nobody waits, so a read by the socket finds nobody. -/
theorem Deaf.inner (deaf : s.Deaf bytes) (block : Block s .inner t) : t.Deaf bytes := by
  cases block with
  | output block => exact deaf.output block
  | read =>
      rw [deaf.empty, recvDataLoop]
      exact deaf.keep rfl deaf.empty.symm rfl
  | delayed =>
      rw [deaf.empty, delayedLoop]
      exact deaf.keep rfl deaf.empty.symm rfl

theorem Deaf.inners (deaf : s.Deaf bytes) (path : BlockPath Tag.Inner s t) : t.Deaf bytes := by
  refine path.invariant deaf fun x a y deaf inner block => ?_
  obtain rfl : a = .inner := inner
  exact deaf.inner block

theorem Deaf.fastRexmt (deaf : s.Deaf bytes) (ack : Word) : (s.doFastRexmt ack).Deaf bytes := by
  obtain ⟨_, _, _, _, _, _, _, _, result, _⟩ := s.beginFastRexmt_eq ack
  have begun : (s.handlePacketLost.beginFastRexmt ack).Deaf bytes := by
    rw [result]
    exact deaf.keep rfl rfl rfl
  have sent := begun.inners (output_inner _)
  rw [doFastRexmt]
  dsimp only
  generalize (s.handlePacketLost.beginFastRexmt ack).output = x at sent ⊢
  exact sent.keep rfl rfl rfl

theorem handlers_silent (k : UdtSocket) (e : UdtError) : ∀ x ∈ k.handlers e, x.receivedBytes = [] := by
  intro x member
  unfold UdtSocket.handlers at member
  rcases List.mem_append.mp member with waiting | shut
  · split at waiting
    · exact List.mem_singleton.mp waiting ▸ rfl
    · exact List.mem_singleton.mp waiting ▸ rfl
    · exact absurd waiting List.not_mem_nil
  · obtain ⟨h, _, rfl⟩ := List.mem_map.mp shut
    rfl

theorem Deaf.block {a : Tag} (deaf : s.Deaf bytes) (whole : a ≠ .disconnect) (block : Block s a t) :
    t.Deaf bytes := by
  cases block with
  | output block => exact deaf.output block
  | read => exact deaf.inner .read
  | delayed => exact deaf.inner .delayed
  | notifySends =>
      rw [notifySends_eq]
      exact deaf.silent (sends_silent _ _ _) rfl rfl rfl
  | notifyHandlers =>
      rw [postHandlers_eq]
      exact deaf.silent (handlers_silent s.sk .disconnected) rfl rfl rfl
  | cancel => exact ⟨deaf.failed, rfl, deaf.given⟩
  | disconnect => exact absurd rfl whole
  | sampled =>
      unfold updateRtt
      split
      · obtain ⟨srtt, rttvar, rxtcur, result⟩ := s.xmitTimer_eq s.cb.rtt
        rw [result]
        exact deaf.keep rfl rfl rfl
      · exact deaf
  | hangup named | failed named => exact deaf.error named rfl rfl
  | @ackPredicted p =>
      obtain ⟨_, _, _, _, _, _, _, _, result⟩ := s.ackPredicted_eq p.hdr.ack
      rw [result]
      exact deaf.keep rfl rfl rfl
  | @syn p =>
      obtain ⟨wl1, wl2, tKeep, result⟩ := s.handleSyn_eq p
      rw [result]
      split
      · split <;> exact deaf.keep rfl rfl rfl
      · exact deaf.keep rfl rfl rfl
  | @reass p =>
      obtain ⟨_, _, _, _, _, _, result⟩ := s.TCP_REASS_eq p
      rw [result]
      exact deaf.keep rfl rfl rfl
  | ackAll =>
      obtain ⟨c, quiet, view⟩ := s.updateAckState_view
      have none : ∀ x ∈ c, x.receivedBytes = [] :=
        fun x member => receivedBytes_silent (quiet x member).2
      exact deaf.silent none (congrArg (fun v : View => v.lastError) view)
        (congrArg (fun v : View => v.recvOps) view) (congrArg View.posted view)
  | fack =>
      unfold UdtCb.updateSndFack
      split <;> exact deaf.keep rfl rfl rfl
  | sacked =>
      rw [dropSndPkt_eq]
      exact deaf.keep rfl rfl rfl
  | @window p =>
      obtain ⟨_, _, result⟩ := s.ackWindow_eq (p.hdr.win.setWidth 32)
      rw [result]
      exact deaf.keep rfl rfl rfl
  | late =>
      obtain ⟨_, _, result⟩ := resetRexmtTimer_eq { s.cb with dupacks := 0 }
      rw [result]
      exact deaf.keep rfl rfl rfl
  | duplicate =>
      obtain ⟨_, _, result⟩ := resetRexmtTimer_eq { s.cb with dupacks := s.cb.dupacks + 1 }
      rw [result]
      exact deaf.keep rfl rfl rfl
  | @fastRexmt p =>
      have counted : Deaf bytes ({ s with cb.dupacks := s.cb.dupacks + 1, cb.rtt := 0 } : Endpoint) :=
        deaf.keep rfl rfl rfl
      exact counted.fastRexmt p.hdr.ack
  | @ackNew p =>
      obtain ⟨_, _, _, _, _, _, _, _, _, result⟩ := s.ackNewData_eq p.hdr
      rw [result]
      exact deaf.keep rfl rfl rfl
  | fin =>
      obtain ⟨t2msl, drop, result⟩ := s.handleFin_eq
      rw [result]
      split
      · exact deaf.keep rfl rfl rfl
      · exact deaf.error (by simp) rfl rfl
  | receiving =>
      obtain ⟨pkt, next, _, result⟩ := s.doReceive_eq
      rw [result]
      exact deaf.keep rfl rfl rfl
  | rexmtBegun =>
      obtain ⟨_, _, _, _, _, _, _, _, _, _, result⟩ := s.rexmtBegun_eq
      rw [result]
      exact deaf.keep rfl rfl rfl
  | persistBegun =>
      obtain ⟨_, _, _, _, _, result, _⟩ := s.persistBegun_eq
      rw [result]
      exact deaf.keep rfl rfl rfl
  | mtu =>
      unfold UdtCb.setMtu
      split
      · exact deaf.keep rfl rfl rfl
      · exact deaf
  | @connect h =>
      obtain ⟨pkt, next, _, result⟩ := s.connecting_eq h
      rw [result]
      exact deaf.keep rfl rfl rfl
  | @connectBusy h =>
      obtain ⟨pkt, next, _, result⟩ := ({ s with sk.connectHandler := some h } : Endpoint).doReceive_eq
      rw [result]
      exact deaf.keep rfl rfl rfl
  | @accept h | @acceptBusy h =>
      obtain ⟨pkt, next, _, result⟩ := ({ s with sk.acceptHandler := some h } : Endpoint).doReceive_eq
      rw [result]
      exact deaf.keep rfl rfl rfl
  | @shutdown h =>
      rw [closing_eq]
      exact deaf.keep rfl rfl rfl
  | @sendRefused op =>
      exact deaf.silent (c := [.sent op s.cb.lastError 0]) (by simp [Completion.receivedBytes])
        rfl rfl rfl
  | @receiveRefused op =>
      exact deaf.silent (c := [.received op s.cb.lastError []]) (by simp [Completion.receivedBytes])
        rfl rfl rfl
  | receiveQueued alive fine => exact absurd fine deaf.failed
  | _ => exact deaf.keep rfl rfl rfl

theorem Deaf.run (deaf : s.Deaf bytes) (es : List Event) : (s.run es).Deaf bytes := by
  unfold Endpoint.run
  induction es generalizing s with
  | nil => exact deaf
  | cons e es ih => exact ih (s.step_keeps e (fun whole deaf block => deaf.block whole block) deaf)

/-- Once an error is set and no receive operation waits, nothing more is given to the user, however much
lies in `rcv_buf` and however often the user asks. -/
theorem nothing_read_after_error (es : List Event) (failed : s.cb.lastError ≠ .succeed)
    (empty : s.sk.recvOps = []) :
    (s.run es).receivedBytes = s.receivedBytes ∧ (s.run es).cb.lastError ≠ .succeed := by
  have begun : s.Deaf s.receivedBytes := ⟨failed, empty, rfl⟩
  have deaf : (s.run es).Deaf s.receivedBytes := begun.run es
  exact ⟨deaf.given, deaf.failed⟩

/-- Three bytes and the FIN come before the user asks for them. -/
def askedLate : List (Duplex.Side × Event) :=
  let cwnd : List UChar := [6, 6, 0, 0, 32, 70]
  [(.far, .accept 0), (.near, .connect 0),
    (.far, .datagram ⟨0, UdtHdr.TH_SYN, 32768, 0, 20, 0, 0, 0⟩ []),
    (.near, .datagram ⟨0, UdtHdr.TH_SYN ||| UdtHdr.TH_ACK, 32768, 0, 26, 0, 1, 0⟩ [6, 6, 0, 0, 28, 176]),
    (.far, .datagram ⟨0, UdtHdr.TH_ACK, 32768, 0, 26, 1, 1, 0⟩ cwnd),
    (.near, .send ⟨.three 1 2 3, 0⟩),
    (.far, .datagram ⟨0, UdtHdr.TH_ACK, 32768, 3, 26, 1, 1, 0⟩ (cwnd ++ [1, 2, 3])),
    (.near, .shutdown 0),
    (.far, .datagram ⟨0, UdtHdr.TH_ACK ||| UdtHdr.TH_FIN, 32768, 0, 26, 4, 1, 0⟩ cwnd)]

theorem nothing_read_after_error_askedLate :
    payload (after blank blank askedLate .far).sk.rcvBuf.pkts = [1, 2, 3] ∧
      ((after blank blank askedLate .far).run [.receive ⟨⟨false, 10⟩, 0⟩]).receivedBytes = [] := by
  have failed : (after blank blank askedLate .far).cb.lastError ≠ .succeed := by decide +kernel
  have empty : (after blank blank askedLate .far).sk.recvOps = [] := by decide +kernel
  refine ⟨by decide +kernel, ?_⟩
  rw [(nothing_read_after_error [.receive ⟨⟨false, 10⟩, 0⟩] failed empty).1]
  decide +kernel

end Endpoint

end UdtBoost
