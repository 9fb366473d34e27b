import UdtBoost.HeaderPrediction

/-! Who holds a packet buffer. `input` answers for the buffer of its datagram, and along every run
a buffer is queued once, or waits for the next datagram, or has been freed. -/
namespace UdtBoost

namespace UdtBuf

/-- A read frees packets from the front and keeps the order of the others. -/
theorem copyLoop_sublist (pkts : List UdtPacket) (seq : Word) (bufLen : Nat) (erase : Bool) :
    ((copyLoop pkts seq bufLen erase).2.map (·.buffer)).Sublist (pkts.map (·.buffer)) := by
  induction pkts generalizing seq bufLen erase with
  | nil => exact .refl _
  | cons p rest ih =>
      have left : ((if bufLen < p.hdr.len.toNat then
          [{ p with hdr :=
            { p.hdr with
              off := p.hdr.off + BitVec.ofNat 16 (min p.hdr.len.toNat bufLen)
              seq := p.hdr.seq + BitVec.ofNat 32 (min p.hdr.len.toNat bufLen)
              len := p.hdr.len - BitVec.ofNat 16 (min p.hdr.len.toNat bufLen) } }]
          else if erase then [] else [p] : List UdtPacket).map (·.buffer)).Sublist [p.buffer] := by
        split
        · exact .refl _
        · split
          · exact List.nil_sublist _
          · exact .refl _
      rw [copyLoop]
      dsimp only
      split
      · rw [List.map_append]
        exact left.append (ih _ _ _)
      · rw [List.map_append]
        exact left.append (.refl _)

theorem copy_sublist (b : UdtBuf) (bufLen : Nat) (erase : Bool) :
    ((b.copy bufLen erase).2.pkts.map (·.buffer)).Sublist (b.pkts.map (·.buffer)) := by
  rw [copy]
  cases queue : b.pkts with
  | nil =>
      dsimp only
      rw [queue]
  | cons p rest =>
      dsimp only
      split
      · rw [queue]
      · exact copyLoop_sublist (p :: rest) _ _ _

end UdtBuf

namespace Core

/-- The buffers of the packets in `m_pkts` and in `m_reasm_pkts`. -/
def buffers (c : Core) : List Nat := c.received.map (·.buffer)

/-- Each buffer is queued at most once, and none while it waits for a datagram. -/
structure Owned (c : Core) : Prop where
  apart : c.Apart
  once : c.buffers.Nodup

/-- Only a packet in a buffer handed out before and not queued is kept. -/
def Fresh (v : View) (a : Act) : Prop :=
  ∀ p, a = .store p → p.buffer < v.nextBuffer ∧ p.buffer ∉ v.buffers

end Core

theorem Step.buffers {v w : View} {a : Act} (step : Step v a w) :
    w.buffers.Sublist v.buffers ∨
      ∃ p, a = .store p ∧ w.buffers.Perm (p.buffer :: v.buffers) := by
  have same : w.received = v.received → w.buffers.Sublist v.buffers := by
    intro received
    rw [Core.buffers, received]
    exact .refl _
  have copied : ∀ {u : View} {n : Nat},
      u.rcvBuf = { v.rcvBuf with toUdtBuf := (v.rcvBuf.toUdtBuf.copy n true).2 } →
        u.buffers.Sublist v.buffers := by
    intro u n buf
    rw [Core.buffers, Core.received, buf, Core.buffers, Core.received, List.map_append,
      List.map_append]
    exact .append (UdtBuf.copy_sublist _ _ _) (.refl _)
  cases step with
  | transmit _ _ sends =>
      refine .inl (same ?_)
      rw [sends.moved]
      rfl
  | @store p below above run kept queue _ _ split =>
      refine .inr ⟨p, rfl, ?_⟩
      change (((v.rcvBuf.pkts ++ run) ++ kept).map (·.buffer)).Perm _
      rw [List.append_assoc, ← split, Core.buffers, Core.received, queue, ← List.map_cons]
      refine .map _ ?_
      rw [← List.append_assoc, ← List.append_assoc]
      exact List.perm_middle
  | @rewrite p mem =>
      have plain : ∀ ps : List UdtPacket,
          (ps.map fun q => if q.buffer = p.buffer then { q with mem } else q).map (·.buffer) =
            ps.map (·.buffer) := by
        intro ps
        rw [List.map_map]
        refine List.map_congr_left fun q _ => ?_
        dsimp only [Function.comp]
        split <;> rfl
      left
      change (((v.rcvBuf.pkts.map _) ++ (v.rcvBuf.reasmPkts.map _)).map UdtPacket.buffer).Sublist _
      rw [List.map_append, plain, plain, ← List.map_append]
      exact .refl _
  | dispatch => exact .inl (copied rfl)
  | discard => exact .inl (copied rfl)
  | close => exact .inl (List.nil_sublist _)
  | _ => exact .inl (same rfl)

theorem Step.owned {v w : View} {a : Act} (step : Step v a w) (owned : v.Owned)
    (fresh : Core.Fresh v a) : w.Owned := by
  refine ⟨step.apart owned.apart fun p same => (fresh p same).1, ?_⟩
  rcases step.buffers with fewer | ⟨p, store, more⟩
  · exact owned.once.sublist fewer
  · rw [more.nodup_iff, List.nodup_cons]
    exact ⟨(fresh p store).2, owned.once⟩

/-- A buffer that comes to wait for a datagram waited before, or was not handed out yet. -/
theorem ViewPath.pending {C : View → Act → Prop} {v w : View} (path : ViewPath C v w) :
    v.nextBuffer ≤ w.nextBuffer ∧
      ∀ b, w.rcvPkt = some b → v.rcvPkt = some b ∨ v.nextBuffer ≤ b := by
  refine path.invariant (I := fun u => v.nextBuffer ≤ u.nextBuffer ∧
    ∀ b, u.rcvPkt = some b → v.rcvPkt = some b ∨ v.nextBuffer ≤ b) ⟨le_rfl, fun b => .inl⟩ ?_
  rintro u a x ⟨below, waits⟩ _ step
  cases step with
  | transmit _ _ sends =>
      rw [sends.moved]
      exact ⟨below, waits⟩
  | alloc =>
      refine ⟨below.trans (Nat.le_succ _), ?_⟩
      intro b here
      obtain rfl := Option.some.inj here
      exact .inr below
  | release => exact ⟨below, fun b here => by contradiction⟩
  | kept => exact ⟨below, fun b here => by contradiction⟩
  | _ => exact ⟨below, waits⟩

namespace Endpoint

variable {s t : Endpoint} {p : UdtPacket} {e : Event}

theorem eventOk_fresh (calm : s.Calm) (owned : s.view.Owned) : EventOk Core.Fresh s e := by
  refine eventOk_stores (fun v a other q same => absurd same (other q)) ?_
  rintro buffer pending x buf next q rfl r same
  obtain rfl := Act.store.inj same
  change q.buffer < x.sk.nextBuffer ∧
    q.buffer ∉ (x.sk.rcvBuf.pkts ++ x.sk.rcvBuf.reasmPkts).map (·.buffer)
  rw [next, buf]
  refine ⟨owned.apart.pending q.buffer pending, ?_⟩
  intro member
  obtain ⟨r, queued, same⟩ := List.mem_map.mp member
  exact owned.apart.apart calm.consumed q.buffer pending r queued same

theorem step_owned (calm : s.Calm) (owned : s.view.Owned) (e : Event) : (s.step e).view.Owned := by
  refine (s.step_path e (C := Core.Fresh) (fun v q same => ?_) (eventOk_fresh calm owned)).invariant
    owned fun v a w owned fresh step => step.owned owned fresh
  contradiction

theorem init_owned (fack sndSeq rcvSeq : Word) (env : Env) :
    (init fack sndSeq rcvSeq env).view.Owned :=
  ⟨(run_apart fack sndSeq rcvSeq env []).2, .nil⟩

/-- What the answer of `input` is about: the flag it is read from, and where packets lie. -/
structure Holding where
  consumed : Bool
  queued : List Nat
  waiting : List Nat
  pending : Option Nat
  receives : List Nat

def holding (s : Endpoint) : Holding where
  consumed := s.cb.flags.packetConsumed
  queued := s.sk.rcvBuf.pkts.map (·.buffer)
  waiting := s.sk.rcvBuf.reasmPkts.map (·.buffer)
  pending := s.sk.rcvPkt
  receives := s.receives

/-- A packet in the buffer was put into one of the two lists, and the flag raised. -/
structure Holding.Takes (h : Holding) (buffer : Nat) (h' : Holding) : Prop where
  consumed : h'.consumed = true
  lists : (h'.queued ++ h'.waiting).Perm (buffer :: (h.queued ++ h.waiting))
  pending : h'.pending = h.pending
  receives : h'.receives = h.receives

section Checks

theorem output_holding (s : Endpoint) : s.output.holding = s.holding := by
  have fields : s.output.outside.holding = s.outside.holding := congrArg holding s.output_outside
  exact fields

theorem stored_holding (s : Endpoint) (p : UdtPacket) :
    (s.stored p).holding = s.holding ∨ s.holding.Takes p.buffer (s.stored p).holding := by
  unfold stored
  split
  case isFalse => exact .inl rfl
  rcases s.TCP_REASS_spec p with unstored | ⟨below, above, run, kept, stored⟩
  · obtain ⟨flags, _, consumed, result⟩ := unstored.result
    left
    rw [result]
    simp only [holding, consumed]
  · obtain ⟨flags, _, consumed, result⟩ := stored.result
    right
    rw [result]
    refine ⟨consumed, ?_, rfl, rfl⟩
    change ((s.sk.rcvBuf.pkts ++ run).map UdtPacket.buffer ++ kept.map UdtPacket.buffer).Perm
      (p.buffer :: (s.sk.rcvBuf.pkts.map UdtPacket.buffer ++
        s.sk.rcvBuf.reasmPkts.map UdtPacket.buffer))
    rw [← List.map_append, List.append_assoc, ← stored.split, stored.queue, ← List.map_append,
      ← List.map_cons, ← List.append_assoc, ← List.append_assoc]
    exact List.perm_middle.map _

theorem OptionStep.holding (step : OptionStep p s t) : t.holding = s.holding := by
  cases step with
  | fack named =>
      unfold UdtCb.updateSndFack
      split <;> rfl
  | sacked =>
      rw [dropSndPkt_eq]
      rfl
  | cwnd => rfl
  | rewrite buffer mem =>
      have plain : ∀ ps : List UdtPacket,
          (ps.map fun q => if q.buffer = buffer then { q with mem } else q).map UdtPacket.buffer =
            ps.map UdtPacket.buffer := by
        intro ps
        rw [List.map_map]
        refine List.map_congr_left fun q _ => ?_
        dsimp only [Function.comp]
        split <;> rfl
      simp only [Endpoint.holding, rewritePkt, plain]

theorem OptionSteps.holding (steps : OptionSteps p s t) : t.holding = s.holding := by
  induction steps with
  | refl => rfl
  | tail _ step ih => exact (OptionStep.holding step).trans ih

theorem acked_holding (s : Endpoint) (p : UdtPacket) : (s.acked p).holding = s.holding := by
  have first : (if s.cb.sndMax = p.hdr.ack then s.updateAckState else s).holding = s.holding := by
    split
    · obtain ⟨_, _, _, _, _, _, _, _, _, _, _, _, _, _, result⟩ := s.updateAckState_eq
      rw [result]
      rfl
    · rfl
  unfold acked
  dsimp only
  split
  · have steps := handleOptions_steps (if s.cb.sndMax = p.hdr.ack then s.updateAckState else s) p
    exact (OptionSteps.holding steps).trans first
  · exact first

theorem doFastRexmt_holding (s : Endpoint) (ack : Word) :
    (s.doFastRexmt ack).holding = s.holding := by
  obtain ⟨_, _, _, _, _, _, _, _, result, _⟩ := s.beginFastRexmt_eq ack
  have begun : (s.handlePacketLost.beginFastRexmt ack).holding = s.holding := by
    rw [result]
    rfl
  have sent := output_holding (s.handlePacketLost.beginFastRexmt ack)
  rw [doFastRexmt]
  dsimp only
  generalize (s.handlePacketLost.beginFastRexmt ack).output = x at sent ⊢
  exact Eq.trans sent begun

theorem ackDuplicate_holding (s : Endpoint) (ti : UdtHdr) :
    (s.ackDuplicate ti).2.holding = s.holding := by
  have timer : ∀ (c : UdtCb) (x : Endpoint), x.cb = c.resetRexmtTimer → x.sk = s.sk →
      x.receives = s.receives → c.flags.packetConsumed = s.cb.flags.packetConsumed →
        x.holding = s.holding := by
    intro c x reset same receives consumed
    obtain ⟨_, _, result⟩ := resetRexmtTimer_eq c
    rw [result] at reset
    simp only [holding, same, reset, receives, consumed]
  rw [ackDuplicate]
  dsimp only
  split
  · obtain ⟨_, _, result⟩ := s.ackWindow_eq (ti.win.setWidth 32)
    exact (congrArg holding result).trans rfl
  split
  · exact timer _ _ rfl rfl rfl rfl
  split
  · exact doFastRexmt_holding _ _
  split
  · rfl
  · exact timer _ _ rfl rfl rfl rfl

theorem handleAck_holding (s : Endpoint) (p : UdtPacket) :
    (s.handleAck p).2.holding = s.holding := by
  have outcome := s.handleAck_outcome p
  generalize s.handleAck p = result at outcome ⊢
  cases outcome with
  | old => rfl
  | beyond => rfl
  | duplicate => exact (ackDuplicate_holding _ _).trans (s.acked_holding p)
  | new =>
      obtain ⟨_, _, _, _, _, _, _, _, _, result⟩ := (s.acked p).ackNewData_eq p.hdr
      rw [result]
      exact s.acked_holding p

theorem handleFin_holding (s : Endpoint) : s.handleFin.holding = s.holding := by
  obtain ⟨_, _, result⟩ := s.handleFin_eq
  rw [result]
  split <;> rfl

theorem inputSegment_holding (s : Endpoint) (p : UdtPacket) :
    (s.inputSegment p).holding = (s.stored p).holding := by
  rw [inputSegment_eq]
  split
  · split
    · exact (handleFin_holding _).trans (handleAck_holding _ p)
    · exact handleAck_holding _ p
  · split
    · exact handleFin_holding _
    · rfl

theorem entered_holding (s : Endpoint) (p : UdtPacket) : (s.entered p).holding = s.holding := by
  obtain ⟨_, _, _, _, _, _, _, result⟩ := s.entered_eq p
  rw [result]
  rfl

theorem synced_holding (s : Endpoint) (p : UdtPacket) : (s.synced p).holding = s.holding := by
  unfold synced
  split
  · obtain ⟨_, _, _, result⟩ := (s.entered p).handleSyn_eq p
    rw [result, ← s.entered_holding p]
    split
    · simp only [holding]
    · rfl
  · exact s.entered_holding p

/-- The checks of `input` leave the packet where it is, or queue it and raise the flag. -/
theorem inputChecked_holding (s : Endpoint) (p : UdtPacket) :
    (s.inputChecked p).holding = s.holding ∨
      s.holding.Takes p.buffer (s.inputChecked p).holding := by
  have timed : (s.timed p).holding = s.holding := s.entered_holding p
  have outcome := s.inputChecked_outcome p
  generalize s.inputChecked p = x at outcome ⊢
  cases outcome with
  | ignored => exact .inl timed
  | hangup => exact .inl timed
  | outside => exact .inl (s.entered_holding p)
  | ackPredicted =>
      left
      obtain ⟨_, _, _, _, _, _, _, _, result⟩ := (s.entered p).ackPredicted_eq p.hdr.ack
      have acked : ((s.entered p).ackPredicted p.hdr.ack).holding = s.holding := by
        rw [result]
        exact s.entered_holding p
      unfold outputData
      split
      · exact (output_holding _).trans acked
      · exact acked
  | @storePredicted rb _ _ _ fits =>
      right
      have here := s.entered_holding p
      generalize s.entered p = w at fits here ⊢
      rw [← here]
      rw [UdtRcvBuf.append, UdtBuf.append_eq] at fits
      split at fits
      · contradiction
      · obtain rfl := Option.some.inj fits
        refine ⟨rfl, ?_, rfl, rfl⟩
        change ((w.sk.rcvBuf.pkts ++ [p]).map UdtPacket.buffer ++
          w.sk.rcvBuf.reasmPkts.map UdtPacket.buffer).Perm
            (p.buffer :: (w.sk.rcvBuf.pkts.map UdtPacket.buffer ++
              w.sk.rcvBuf.reasmPkts.map UdtPacket.buffer))
        rw [List.map_append, List.append_assoc]
        exact List.perm_middle
  | synRefused => exact .inl (s.synced_holding p)
  | segment =>
      have buffer : p.counted.buffer = p.buffer := by
        unfold UdtPacket.counted
        split <;> rfl
      have kept := (s.synced p).stored_holding p.counted
      rwa [← inputSegment_holding, s.synced_holding, buffer] at kept

end Checks

section Slot

/-- The buffer that waits for a datagram, what decides whether it is given up, and the receives. -/
def slot (s : Endpoint) : Bool × Option Nat × List Nat :=
  (s.cb.flags.packetConsumed, s.sk.rcvPkt, s.receives)

theorem inner_slot (path : BlockPath Tag.Inner s t) : t.slot = s.slot :=
  congrArg (fun v : Steady => (v.packetConsumed, v.rcvPkt, v.receives)) (path_inner_steady path)

theorem output_slot (s : Endpoint) : s.output.slot = s.slot := inner_slot s.output_inner

theorem onDisconnected_slot (s : Endpoint) : s.onDisconnected.slot = s.slot := by
  unfold onDisconnected
  split
  · dsimp only
    rw [notifySends_eq]
    have read := inner_slot (recvData_blocks
      { s with posted := s.posted ++ s.sk.sendOps.map (.sent · .disconnected 0) })
    generalize recvData _ = x at read ⊢
    rw [postHandlers_eq]
    exact read
  · rfl

theorem drop_slot (s : Endpoint) (e : UdtError) : (s.drop e).slot = s.slot := by
  have failed : (if e ≠ .succeed then { s with cb.lastError := e } else s : Endpoint).slot =
      s.slot := by
    split <;> rfl
  exact (onDisconnected_slot _).trans failed

theorem commitNotifies_slot (s : Endpoint) : s.commitNotifies.slot = s.slot := by
  have reset : ∀ x : Endpoint, x.commitReset.slot = x.slot := by
    intro x
    unfold commitReset
    split <;> rfl
  have read : ∀ x : Endpoint, x.commitRead.slot = x.slot := by
    intro x
    have readable : x.notifyReadable.slot = x.slot := inner_slot x.notifyReadable_blocks
    unfold commitRead
    split
    · exact readable
    · rfl
  have write : ∀ x : Endpoint, x.commitWrite.slot = x.slot := by
    intro x
    have written : x.onWritable.slot = x.slot := inner_slot x.onWritable_blocks
    unfold commitWrite
    split
    · exact written
    · rfl
  have drop : ∀ x : Endpoint, x.commitDrop.slot = x.slot := by
    intro x
    unfold commitDrop
    split
    · exact x.drop_slot _
    · rfl
  calc s.commitNotifies.slot = s.commitOutput.commitReset.commitRead.commitWrite.slot := drop _
    _ = s.commitOutput.commitReset.commitRead.slot := write _
    _ = s.commitOutput.commitReset.slot := read _
    _ = s.commitOutput.slot := reset _
    _ = s.slot := inner_slot s.commitOutput_blocks

theorem slowRexmt_slot (s : Endpoint) : s.slowRexmt.slot = s.slot := by
  unfold slowRexmt
  split
  · rfl
  dsimp only
  split
  · unfold rexmtExpired
    dsimp only
    split
    · exact drop_slot _ _
    · obtain ⟨_, _, _, _, _, _, _, _, _, _, result⟩ := s.rexmtBegun_eq
      refine (output_slot s.rexmtBegun).trans ?_
      rw [result]
      rfl
  · rfl

theorem slowPersist_slot (s : Endpoint) : s.slowPersist.slot = s.slot := by
  unfold slowPersist
  split
  · rfl
  dsimp only
  split
  · change ({ s.persistBegun.output with cb.force := false } : Endpoint).slot = s.slot
    have begun : s.persistBegun.slot = s.slot := by
      obtain ⟨_, _, _, _, _, result, _⟩ := s.persistBegun_eq
      rw [result]
      rfl
    have sent := (output_slot s.persistBegun).trans begun
    generalize s.persistBegun.output = x at sent ⊢
    exact sent
  · rfl

theorem slowKeep_slot (s : Endpoint) : s.slowKeep.slot = s.slot := by
  unfold slowKeep
  split
  · rfl
  dsimp only
  split
  · unfold keepExpired
    split
    · exact drop_slot _ _
    split
    · split
      · exact drop_slot _ _
      · rfl
    · rfl
  · rfl

theorem slow2msl_slot (s : Endpoint) : s.slow2msl.slot = s.slot := by
  unfold slow2msl
  split
  · rfl
  dsimp only
  split
  · exact drop_slot _ _
  · rfl

theorem handleSlowTimo_slot (s : Endpoint) : s.handleSlowTimo.slot = s.slot := by
  have timers : s.slowRexmt.slowPersist.slowKeep.slow2msl.slot = s.slot :=
    calc s.slowRexmt.slowPersist.slowKeep.slow2msl.slot
      _ = s.slowRexmt.slowPersist.slowKeep.slot := slow2msl_slot _
      _ = s.slowRexmt.slowPersist.slot := slowKeep_slot _
      _ = s.slowRexmt.slot := slowPersist_slot _
      _ = s.slot := slowRexmt_slot s
  unfold handleSlowTimo
  generalize s.slowRexmt.slowPersist.slowKeep.slow2msl = x at timers ⊢
  exact timers

/-- Every call of `do_receive` starts a receive, whether or not one is pending. -/
theorem doReceive_slot (alive : s.sk.nextLayer = true) : ∃ b, s.doReceive.slot =
    (s.cb.flags.packetConsumed, some b, s.receives ++ [b]) ∧ (s.sk.rcvPkt = some b ∨
      s.sk.rcvPkt = none ∧ b = s.sk.nextBuffer) := by
  unfold doReceive
  rw [if_pos alive]
  cases pending : s.sk.rcvPkt with
  | none => exact ⟨s.sk.nextBuffer, rfl, .inr ⟨rfl, rfl⟩⟩
  | some b => exact ⟨b, by rw [slot, pending], .inl rfl⟩

theorem doReceive_congr_slot (slot : t.slot = s.slot) (open_ : t.sk.nextLayer = s.sk.nextLayer)
    (next : t.sk.nextBuffer = s.sk.nextBuffer) : t.doReceive.slot = s.doReceive.slot := by
  have consumed : t.cb.flags.packetConsumed = s.cb.flags.packetConsumed := congrArg Prod.fst slot
  have pending : t.sk.rcvPkt = s.sk.rcvPkt := congrArg (·.2.1) slot
  have receives : t.receives = s.receives := congrArg (·.2.2) slot
  unfold doReceive
  rw [open_, pending]
  split
  · cases s.sk.rcvPkt with
    | none => simp only [Endpoint.slot, consumed, receives, next]
    | some b => simp only [Endpoint.slot, consumed, receives, pending]
  · exact slot

theorem Requested.slot {a : Tag} (requested : Requested a s t)
    (first : ∀ m, Block s a m → m.slot = s.slot) : t.slot = s.slot := by
  obtain ⟨m, block, path⟩ := requested
  exact (inner_slot path).trans (first m block)

/-- The two calls of the user that start a receive. -/
def Starts : Event → Prop
  | .connect _ | .accept _ => True
  | _ => False

theorem step_starts (starts : Starts e) (alive : s.sk.nextLayer = true) :
    (s.step e).slot = s.doReceive.slot := by
  cases e with
  | connect h =>
      have same : ({ s with sk.connectHandler := some h } : Endpoint).doReceive.slot =
          s.doReceive.slot := doReceive_congr_slot rfl rfl rfl
      obtain ⟨m, block, path⟩ := s.connect_blocks h alive
      refine (inner_slot path).trans ?_
      cases block with
      | connect => exact same
      | connectBusy => exact same
  | accept h =>
      have same : ({ s with sk.acceptHandler := some h } : Endpoint).doReceive.slot =
          s.doReceive.slot := doReceive_congr_slot rfl rfl rfl
      have block := s.accept_blocks h alive
      rw [step]
      generalize s.asyncAccept h = x at block ⊢
      cases block with
      | accept => exact same
      | acceptBusy => exact same
  | _ => exact absurd starts not_false

theorem step_starts_shut (starts : Starts e) (shut : ¬ s.sk.nextLayer = true) : s.step e = s := by
  cases e with
  | connect h => rw [step, asyncConnect, if_neg shut]
  | accept h => rw [step, asyncAccept, if_neg shut]
  | _ => exact absurd starts not_false

/-- Other calls and the timers have no part in receiving. -/
theorem step_slot (starts : ¬ Starts e) (noPacket : ∀ hdr mem n, e ≠ .packet hdr mem n)
    (noError : ∀ value, e ≠ .receiveError value) : (s.step e).slot = s.slot := by
  cases e with
  | packet hdr mem n => exact absurd rfl (noPacket hdr mem n)
  | receiveError value => exact absurd rfl (noError value)
  | connect | accept => exact absurd trivial starts
  | slowTimo =>
      rw [step, slowTimer]
      split
      · exact s.handleSlowTimo_slot
      · rfl
  | fastTimo =>
      rw [step, fastTimer]
      unfold handleFastTimo
      split
      · split
        · exact output_slot _
        · rfl
      · rfl
  | send op =>
      by_cases alive : s.sk.nextLayer = true
      · refine (s.send_blocks op alive).slot ?_
        intro m block
        cases block <;> rfl
      · rw [step, asyncSend, if_pos (by simpa using alive)]
  | receive op =>
      by_cases alive : s.sk.nextLayer = true
      · refine (s.receive_blocks op alive).slot ?_
        intro m block
        cases block <;> rfl
      · rw [step, asyncReceive, if_pos (by simpa using alive)]
  | shutdown h =>
      by_cases alive : s.sk.nextLayer = true
      · refine (s.shutdown_blocks h alive).slot ?_
        intro m block
        cases block
        rw [closing_eq]
        rfl
      · rw [step, asyncShutdown, if_neg alive]
  | delayTimer aborted =>
      rw [step]
      unfold handleDelayRecvOperation
      split
      · rfl
      dsimp only
      split
      · rfl
      · obtain ⟨_, _, _, _, result⟩ := ({ s with sk.delayWaits := s.sk.delayWaits - 1 } :
          Endpoint).delayedLoop_spec s.sk.recvOps
        rw [result]
        rfl
  | mtu =>
      rw [step]
      unfold handleMtu UdtCb.setMtu
      split
      · split <;> rfl
      · rfl
  | close =>
      rw [step]
      unfold Endpoint.close
      split <;> rfl
  | _ => rfl

end Slot

/-- How often the packet in a buffer is an element of `m_pkts` or `m_reasm_pkts`. -/
def copies (s : Endpoint) (buffer : Nat) : Nat :=
  (s.sk.rcvBuf.pkts.map (·.buffer)).count buffer +
    (s.sk.rcvBuf.reasmPkts.map (·.buffer)).count buffer

theorem copies_eq (s : Endpoint) (buffer : Nat) : s.copies buffer = s.view.buffers.count buffer := by
  rw [Core.buffers, Core.received, List.map_append, List.count_append]
  rfl

/-- The state in which `commit_notifies` starts for a datagram, if `input` comes so far. -/
def committing (s : Endpoint) (hdr : UdtHdr) (mem : List UChar) (n buffer : Nat) :
    Option Endpoint :=
  if intact hdr n then some (s.inputChecked (hostPacket hdr mem buffer)) else none

section Answer

variable {b n : Nat} {hdr : UdtHdr} {mem : List UChar}

theorem copies_le (owned : s.view.Owned) : s.copies b ≤ 1 := by
  rw [copies_eq]
  exact List.nodup_iff_count_le_one.mp owned.once b

theorem copies_pending (calm : s.Calm) (owned : s.view.Owned) (pending : s.sk.rcvPkt = some b) :
    s.copies b = 0 := by
  rw [copies_eq, List.count_eq_zero]
  intro member
  obtain ⟨q, queued, same⟩ := List.mem_map.mp member
  exact owned.apart.apart calm.consumed b pending q queued same

theorem copies_later (owned : s.view.Owned) (later : s.sk.nextBuffer ≤ b) : s.copies b = 0 := by
  rw [copies_eq, List.count_eq_zero]
  intro member
  obtain ⟨q, queued, rfl⟩ := List.mem_map.mp member
  exact absurd (owned.apart.used q queued) (not_lt.mpr later)

/-- The flag says where the packet is when `commit_notifies` starts. -/
theorem inputChecked_copies (calm : s.Calm) (owned : s.view.Owned)
    (pending : s.sk.rcvPkt = some p.buffer) :
    ((s.inputChecked p).cb.flags.packetConsumed = true ∧ (s.inputChecked p).copies p.buffer = 1) ∨
      (s.inputChecked p).cb.flags.packetConsumed = false ∧
        (s.inputChecked p).copies p.buffer = 0 := by
  have before := copies_pending calm owned pending
  rcases s.inputChecked_holding p with same | takes
  · right
    refine ⟨(congrArg Holding.consumed same).trans calm.consumed, ?_⟩
    exact (congrArg (fun h : Holding => h.queued.count p.buffer + h.waiting.count p.buffer)
      same).trans before
  · left
    refine ⟨takes.consumed, ?_⟩
    have count := takes.lists.count_eq p.buffer
    rw [List.count_append, List.count_cons_self, List.count_append] at count
    exact count.trans (congrArg (· + 1) before)

theorem pktConsumed_fst (s : Endpoint) : s.pktConsumed.1 = s.cb.flags.packetConsumed := by
  unfold pktConsumed
  cases s.cb.flags.packetConsumed <;> rfl

theorem input_fst (good : intact hdr n) : (s.input ⟨hdr, mem, b⟩ n).1 =
    (s.inputChecked (hostPacket hdr mem b)).cb.flags.packetConsumed := by
  rw [s.input_intact good, pktConsumed_fst]
  exact congrArg Prod.fst (commitNotifies_slot _)

theorem input_answer (calm : s.Calm) (owned : s.view.Owned) (pending : s.sk.rcvPkt = some b) :
    ((s.input ⟨hdr, mem, b⟩ n).1 = true ↔
        ∃ x, s.committing hdr mem n b = some x ∧ x.copies b = 1) ∧
      ((s.input ⟨hdr, mem, b⟩ n).1 = false ↔
        ∀ x, s.committing hdr mem n b = some x → x.copies b = 0) := by
  unfold committing
  by_cases good : intact hdr n
  · rw [if_pos good, input_fst good]
    have found := inputChecked_copies (p := hostPacket hdr mem b) calm owned pending
    change (_ ∧ Endpoint.copies _ b = 1) ∨ (_ ∧ Endpoint.copies _ b = 0) at found
    generalize s.inputChecked (hostPacket hdr mem b) = x at found ⊢
    rcases found with ⟨up, one⟩ | ⟨down, none⟩
    · simp [up, one]
    · simp [down, none]
  · rw [if_neg good, s.input_damaged good]
    simp

end Answer

theorem step_open (other : e ≠ .close) : (s.step e).sk.nextLayer = s.sk.nextLayer := by
  have path := s.step_path (C := fun _ a => a ≠ .close) e (by simp)
    (EventOk.of_all (fun _ _ _ other => other) (fun _ _ _ => by simp) fun same => absurd same other)
  refine path.invariant (I := fun v => v.nextLayer = s.sk.nextLayer) rfl ?_
  intro v a w same met step
  cases step with
  | transmit _ _ sends =>
      rw [sends.moved]
      exact same
  | close => exact absurd rfl met
  | _ => exact same

theorem doReceive_open (s : Endpoint) : s.doReceive.sk.nextLayer = s.sk.nextLayer := by
  obtain ⟨_, _, _, result⟩ := s.doReceive_eq
  rw [result]

theorem received_kept (up : s.cb.flags.packetConsumed = true) : s.received =
    ({ s with cb.flags.packetConsumed := false, sk.rcvPkt := none } : Endpoint).doReceive := by
  unfold received pktConsumed
  rw [up]
  rfl

theorem received_back (down : s.cb.flags.packetConsumed = false) : s.received = s.doReceive := by
  unfold received pktConsumed
  rw [down]
  rfl

theorem handleReceiveError_receives (s : Endpoint) (value : Int) :
    (s.handleReceiveError value).receives = s.receives := by
  rw [handleReceiveError_eq]
  split
  · exact congrArg (·.2.2) (onDisconnected_slot { s with sk.rcvPkt := none })
  · rfl

theorem handleReceiveError_released (s : Endpoint) (value : Int)
    (open_ : (s.handleReceiveError value).sk.nextLayer = true) :
    (s.handleReceiveError value).sk.rcvPkt = none := by
  rw [handleReceiveError_eq] at open_ ⊢
  split at open_
  · rw [if_pos ‹_›]
    exact congrArg (·.2.1) (onDisconnected_slot { s with sk.rcvPkt := none })
  · contradiction

/-- Each datagram starts the next receive. It fills another buffer when `input` has kept the packet. -/
theorem handleReceive_slot {b : Nat} (calm : s.Calm) (owned : s.view.Owned)
    (alive : s.sk.nextLayer = true) (pending : s.sk.rcvPkt = some b) (hdr : UdtHdr)
    (mem : List UChar) (n : Nat) :
    ∃ next, (s.handleReceive hdr mem n).sk.rcvPkt = some next ∧
      (s.handleReceive hdr mem n).receives = s.receives ++ [next] ∧
      (next = b ∨ ∃ x, s.committing hdr mem n b = some x ∧ x.copies b = 1) := by
  by_cases good : intact hdr n
  case neg =>
    have result : s.handleReceive hdr mem n = s.doReceive := by
      rw [handleReceive, if_neg (by simp [alive]), pending]
      dsimp only
      rw [s.input_damaged good]
    rw [result]
    obtain ⟨next, slot, here | ⟨none, _⟩⟩ := s.doReceive_slot alive
    · have same : b = next := Option.some.inj (pending.symm.trans here)
      exact ⟨next, congrArg (·.2.1) slot, congrArg (·.2.2) slot, .inl same.symm⟩
    · rw [pending] at none
      contradiction
  case pos =>
    have open_ : (s.handleReceive hdr mem n).sk.nextLayer = true :=
      (step_open (e := .packet hdr mem n) (by simp)).trans alive
    rw [handleReceive_good alive pending good] at open_ ⊢
    rw [committing, if_pos good]
    have found := inputChecked_copies (p := hostPacket hdr mem b) calm owned pending
    have waits : (s.inputChecked (hostPacket hdr mem b)).sk.rcvPkt = some b ∧
        (s.inputChecked (hostPacket hdr mem b)).receives = s.receives := by
      rcases s.inputChecked_holding (hostPacket hdr mem b) with same | takes
      · exact ⟨(congrArg Holding.pending same).trans pending, congrArg Holding.receives same⟩
      · exact ⟨takes.pending.trans pending, takes.receives⟩
    have kept := commitNotifies_slot (s.inputChecked (hostPacket hdr mem b))
    generalize s.inputChecked (hostPacket hdr mem b) = x at found waits kept open_ ⊢
    generalize x.commitNotifies = y at kept open_ ⊢
    have flag : y.cb.flags.packetConsumed = x.cb.flags.packetConsumed := congrArg Prod.fst kept
    have here : y.sk.rcvPkt = some b := (congrArg (·.2.1) kept).trans waits.1
    have receives : y.receives = s.receives := (congrArg (·.2.2) kept).trans waits.2
    rcases found with ⟨up, one⟩ | ⟨down, _⟩
    · rw [received_kept (flag.trans up)] at open_ ⊢
      rw [doReceive_open] at open_
      obtain ⟨next, slot, _⟩ := doReceive_slot (s := { y with
        cb.flags.packetConsumed := false, sk.rcvPkt := none }) open_
      refine ⟨next, congrArg (·.2.1) slot, (congrArg (·.2.2) slot).trans ?_, .inr ⟨_, rfl, one⟩⟩
      exact congrArg (· ++ [next]) receives
    · rw [received_back (flag.trans down)] at open_ ⊢
      rw [doReceive_open] at open_
      obtain ⟨next, slot, same | ⟨none, _⟩⟩ := y.doReceive_slot open_
      · refine ⟨next, congrArg (·.2.1) slot, (congrArg (·.2.2) slot).trans ?_, .inl ?_⟩
        · exact congrArg (· ++ [next]) receives
        · exact Option.some.inj (same.symm.trans here)
      · rw [here] at none
        contradiction

end Endpoint

end UdtBoost
