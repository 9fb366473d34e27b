import UdtBoost.SendStock
import UdtBoost.TimeWait
import UdtBoost.Intake
import UdtBoost.Numbering

/-! Progress of the queue of send operations. An operation goes into `snd_buf` whole, so one that is
longer than the whole buffer stays at the front for good, and nothing else keeps one from completing. -/
namespace UdtBoost

open UdtBuf (opsLen)

/-- The user gives up the queue or moves the limit. -/
def Event.disturbs : Event → Bool
  | .cancel | .close | .setSndBuf _ => true
  | _ => false

namespace Endpoint

variable {s t : Endpoint} {p : UdtPacket} {e : Event} {es fs : List Event}

theorem run_sound (fack sndSeq rcvSeq : Word) (env : Env) (es : List Event) :
    ((init fack sndSeq rcvSeq env).run es).stock.Sound := by
  have fresh : (init fack sndSeq rcvSeq env).stock.Sound :=
    ⟨rfl, by simp [init, stock, UdtSocket.init], rfl, rfl⟩
  have met : Trace.Meets step (fun _ _ => True) (init fack sndSeq rcvSeq env) es :=
    .trivial_of es fun _ _ => trivial
  exact met.invariant (I := fun s => s.stock.Sound) fresh fun s e sound _ =>
    s.step_keeps e (I := fun s => s.stock.Sound) (fun whole sound block => block_sound block whole sound)
      sound

section Progress

variable {op : SendOperation} {rest : List SendOperation}

theorem fits_iff (sound : s.stock.Sound) (empty : s.stock.total = 0) (filled : op.Filled) :
    (s.sk.sndBuf.appendData op.buf.data s.cb.maxseg.toNat).isSome ↔
      op.buf.size ≤ s.sk.sndBuf.hiwat.toNat := by
  have none : s.sk.sndBuf.cc = 0 := by
    have cc : s.sk.sndBuf.cc = _ := sound.cc
    rw [cc, empty]
    rfl
  have acc : s.sk.sndBuf.acc = s.sk.sndBuf.hiwat := by
    rw [UdtBuf.acc, none]
    exact BitVec.sub_zero _
  have large : s.cb.maxseg.toNat ≠ 0 := by
    have maxseg : s.cb.maxseg = sMss := sound.maxseg
    rw [maxseg]
    decide
  rcases data : op.buf.data with _ | bytes
  · exact absurd data filled.2
  · have size : op.buf.size = bytes.length := by rw [ConstBuffer.size, data]; rfl
    have some_ : bytes ≠ [] := by
      rintro rfl
      exact filled.1 size
    rw [UdtBuf.appendData, acc, size]
    simp only [some_, large, or_false]
    split
    · next full => simp [full]
    · next room => simp [Nat.le_of_not_lt room]

theorem consumePendingData_takes {b : UdtBuf} (queue : s.sk.sendOps = op :: rest)
    (fits : s.sk.sndBuf.appendData op.buf.data s.cb.maxseg.toNat = some b) :
    op.buf.size ≤ s.consumePendingData.1 := by
  obtain ⟨ops, left, b', split, _, result⟩ :=
    ({ s with sk.sndBuf := b }.post (.sent op .succeed op.buf.size)).consumePendingLoop_spec rest
  rw [consumePendingData, queue, consumePendingLoop, fits]
  dsimp only
  rw [result]
  exact Nat.le_add_right _ _

theorem progress_iff (sound : s.stock.Sound) (empty : s.stock.total = 0)
    (queue : s.sk.sendOps = op :: rest) :
    0 < s.consumePendingData.1 ↔ op.buf.size ≤ s.sk.sndBuf.hiwat.toNat := by
  have filled : op.Filled := sound.filled op (by
    change op ∈ s.sk.sendOps
    rw [queue]
    exact List.mem_cons_self)
  rw [← fits_iff sound empty filled]
  rcases fits : s.sk.sndBuf.appendData op.buf.data s.cb.maxseg.toNat with _ | b
  · rw [consumePendingData_refused queue fits]
    simp
  · have takes := consumePendingData_takes queue fits
    have some_ := filled.1
    simp only [Option.isSome_some, iff_true]
    omega

theorem consumePendingData_done (sound : s.stock.Sound) (some_ : 0 < s.consumePendingData.1) :
    s.consumePendingData.2.completedSends ≠ s.completedSends := by
  obtain ⟨ops, left, b, split, _, result⟩ := s.consumePendingData_spec
  have filled : ∀ op ∈ ops, op.Filled := by
    intro op member
    refine sound.filled op ?_
    change op ∈ s.sk.sendOps
    rw [split]
    exact List.mem_append_left _ member
  intro same
  rw [result] at some_ same
  rw [completedSends, sentBytes_append, sentBytes_done filled, List.map_append, List.map_map] at same
  have none : ops = [] := by simpa [completedSends] using same
  simp [none] at some_

end Progress

section Emptied

/-- The packet is an acknowledgement of everything in `snd_buf`. -/
structure EmptiedBy (s : Endpoint) (p : UdtPacket) : Prop where
  admitted : s.admits p.hdr = true
  isAck : hasAck p.hdr.flags = true
  plain : hasSyn p.hdr.flags = false
  above : seqGt p.hdr.ack s.cb.sndUna
  sent : seqLe p.hdr.ack s.cb.sndMax
  all : p.hdr.ack = s.sk.sndBuf.seq
  behind : ∀ q ∈ s.sk.sndBuf.pkts, seqLt q.hdr.seq p.hdr.ack

instance (s : Endpoint) (p : UdtPacket) : Decidable (s.EmptiedBy p) :=
  have := List.decidableBAll (fun q : UdtPacket => seqLt q.hdr.seq p.hdr.ack) s.sk.sndBuf.pkts
  decidable_of_iff (s.admits p.hdr = true ∧ hasAck p.hdr.flags = true ∧ hasSyn p.hdr.flags = false ∧
      seqGt p.hdr.ack s.cb.sndUna ∧ seqLe p.hdr.ack s.cb.sndMax ∧ p.hdr.ack = s.sk.sndBuf.seq ∧
      ∀ q ∈ s.sk.sndBuf.pkts, seqLt q.hdr.seq p.hdr.ack)
    ⟨fun ⟨a, b, c, d, e, f, g⟩ => ⟨a, b, c, d, e, f, g⟩,
      fun ⟨a, b, c, d, e, f, g⟩ => ⟨a, b, c, d, e, f, g⟩⟩

/-- The event brings such a packet. -/
def empties (s : Endpoint) (e : Event) : Bool := (s.arriving e).any fun p => decide (s.EmptiedBy p)

/-- How many of the events do. -/
def emptyings (s : Endpoint) : List Event → Nat
  | [] => 0
  | e :: es => (if s.empties e then 1 else 0) + (s.step e).emptyings es

theorem optionSteps_buf {p : UdtPacket} (steps : OptionSteps p s t) :
    t.sk.sndBuf.seq = s.sk.sndBuf.seq ∧ ∀ q ∈ t.sk.sndBuf.pkts, q ∈ s.sk.sndBuf.pkts := by
  induction steps with
  | refl => exact ⟨rfl, fun q member => member⟩
  | tail _ step ih =>
      cases step with
      | sacked named queue =>
          rw [dropSndPkt_eq]
          refine ⟨ih.1, fun q member => ih.2 q ?_⟩
          rw [queue]
          rcases List.mem_append.mp member with front | back
          · exact List.mem_append_left _ front
          · exact List.mem_append_right _ (List.mem_cons_of_mem _ back)
      | _ => exact ih

theorem acked_buf (s : Endpoint) (p : UdtPacket) :
    (s.cb.state ≠ .synReceived → (s.acked p).sk.sndBuf.seq = s.sk.sndBuf.seq) ∧
      ∀ q ∈ (s.acked p).sk.sndBuf.pkts, q ∈ s.sk.sndBuf.pkts := by
  have options : ∀ x : Endpoint, OptionSteps p x
      (if UdtHdr.size < p.hdr.off.toNat then x.handleOptions p else x) := by
    intro x
    split
    · exact x.handleOptions_steps p
    · exact .refl
  unfold acked
  dsimp only
  obtain ⟨seq, fewer⟩ := optionSteps_buf
    (options (if s.cb.sndMax = p.hdr.ack then s.updateAckState else s))
  rw [seq]
  have first : (s.cb.state ≠ .synReceived →
      (if s.cb.sndMax = p.hdr.ack then s.updateAckState else s).sk.sndBuf.seq = s.sk.sndBuf.seq) ∧
      (if s.cb.sndMax = p.hdr.ack then s.updateAckState else s).sk.sndBuf.pkts = s.sk.sndBuf.pkts := by
    split
    · obtain ⟨_, _, _, _, _, _, _, _, _, _, _, _, _, _, result⟩ := s.updateAckState_eq
      rw [result]
      dsimp only
      split
      · next greeted => exact ⟨fun other => absurd greeted.2 other, rfl⟩
      · exact ⟨fun _ => rfl, rfl⟩
    · exact ⟨fun _ => rfl, rfl⟩
  rw [← first.2]
  exact ⟨first.1, fewer⟩

/-- What a packet that acknowledges everything leaves behind. -/
structure Emptied (s x : Endpoint) : Prop where
  pkts : x.sk.sndBuf.pkts = []
  write : x.cb.flags.notifyWrite = true
  alive : x.sk.nextLayer = s.sk.nextLayer

theorem rest_nil {gone rest pkts : List UdtPacket} {ack : Word} (split : pkts = gone ++ rest)
    (kept : ∀ q, rest.head? = some q → seqGe q.hdr.seq ack)
    (behind : ∀ q ∈ pkts, seqLt q.hdr.seq ack) : rest = [] := by
  cases rest with
  | nil => rfl
  | cons q rest =>
      have below := behind q (by rw [split]; exact List.mem_append_right _ List.mem_cons_self)
      exact absurd below (kept q rfl)

theorem EmptiedBy.not_una (emptied : s.EmptiedBy p) : p.hdr.ack ≠ s.cb.sndUna := by
  intro same
  have above := seqGt_iff.mp emptied.above
  rw [same, BitVec.sub_self] at above
  exact absurd above.1 (Nat.lt_irrefl 0)

theorem entered_stock (s : Endpoint) (p : UdtPacket) : (s.entered p).stock = s.stock := by
  obtain ⟨_, _, _, _, _, _, _, result⟩ := s.entered_eq p
  rw [result]
  rfl

theorem EmptiedBy.predicted (emptied : s.EmptiedBy p) (sound : s.stock.Sound)
    (taken : ((s.entered p).doHeaderPrediction p).1 = true) : Emptied s (s.inputChecked p) := by
  have side := s.entered_sendSide p
  have admitted := emptied.admitted
  have una : (s.entered p).cb.sndUna = s.cb.sndUna := congrArg SendSide.sndUna side
  have buf : (s.entered p).sk.sndBuf = s.sk.sndBuf := congrArg SendSide.sndBuf side
  have bare : p.hdr.len = 0 := by
    by_contra long
    exact emptied.not_una (((predicts_of_taken taken).data long).1.trans una)
  have alive : (s.entered p).sk.nextLayer = s.sk.nextLayer := by
    obtain ⟨_, _, _, _, _, _, _, result⟩ := s.entered_eq p
    rw [result]
  obtain missed | ⟨_, _, ⟨_, _, _, result⟩ | ⟨long, _⟩⟩ := (s.entered p).doHeaderPrediction_cases p
  · rw [missed] at taken
    contradiction
  · obtain ⟨gone, rest, _, _, _, split, _, kept, acked⟩ := (s.entered p).ackPredicted_eq p.hdr.ack
    have none : rest = [] := rest_nil split kept (by rw [buf]; exact emptied.behind)
    have emptied : Emptied s ((s.entered p).ackPredicted p.hdr.ack) := by
      rw [acked, none]
      exact ⟨rfl, rfl, alive⟩
    have total : ((s.entered p).ackPredicted p.hdr.ack).stock.total = 0 := by
      change totalLen ((s.entered p).ackPredicted p.hdr.ack).sk.sndBuf.pkts = 0
      rw [emptied.pkts]
      rfl
    have cc : ((s.entered p).ackPredicted p.hdr.ack).sk.sndBuf.cc = 0 := by
      have left : totalLen (s.entered p).sk.sndBuf.pkts = totalLen gone + totalLen rest := by
        rw [split, totalLen_append]
      have step : Stock.Step (s.entered p).stock .inner ((s.entered p).ackPredicted p.hdr.ack).stock := by
        rw [acked]
        exact drop_stock left rfl
      have counted := (step.sound (s.entered_stock p ▸ sound)).cc
      rw [total] at counted
      exact counted
    rw [inputChecked_fast admitted taken, result]
    dsimp only
    rw [outputData, if_neg (not_not.mpr cc)]
    exact emptied
  · exact absurd bare long

/-- The state in which the slow path comes to the acknowledgement. -/
def reached (s : Endpoint) (p : UdtPacket) : Endpoint := ((s.entered p).stored p).acked p

theorem entered_stored (s : Endpoint) (p : UdtPacket) :
    ((s.entered p).stored p).sendSide = s.sendSide ∧
      ((s.entered p).stored p).cb.state = s.cb.state ∧
      ((s.entered p).stored p).sk.nextLayer = s.sk.nextLayer := by
  obtain ⟨_, _, _, _, _, _, result⟩ := (s.entered p).stored_eq p
  obtain ⟨_, _, _, _, _, _, _, entered⟩ := s.entered_eq p
  rw [result, entered]
  exact ⟨rfl, rfl, rfl⟩

/-- The slow path drops all packets and may then handle a FIN. -/
theorem EmptiedBy.unpredicted (emptied : s.EmptiedBy p)
    (missed : ((s.entered p).doHeaderPrediction p).1 = false) :
    s.inputChecked p = (s.reached p).ackNewData p.hdr ∨
      s.inputChecked p = ((s.reached p).ackNewData p.hdr).handleFin := by
  have noSyn : ¬ hasSyn p.hdr.flags = true := by simp [emptied.plain]
  have side := (s.entered_stored p).1
  have una : ((s.entered p).stored p).cb.sndUna = s.cb.sndUna := congrArg SendSide.sndUna side
  have max : ((s.entered p).stored p).cb.sndMax = s.cb.sndMax := congrArg SendSide.sndMax side
  have outcome := s.inputChecked_outcome p
  generalize s.inputChecked p = x at outcome ⊢
  cases outcome with
  | ignored refused | hangup refused | outside refused =>
      rw [emptied.admitted] at refused
      contradiction
  | ackPredicted _ _ _ _ _ _ taken | storePredicted _ _ _ _ taken =>
      rw [missed] at taken
      contradiction
  | synRefused _ isSyn => exact absurd isSyn noSyn
  | segment =>
      rw [synced, if_neg noSyn, UdtPacket.counted, if_neg noSyn, inputSegment_eq, if_pos emptied.isAck]
      have acked := ((s.entered p).stored p).handleAck_outcome p
      generalize ((s.entered p).stored p).handleAck p = result at acked ⊢
      cases acked with
      | old old =>
          rw [una] at old
          exact absurd old (not_seqLt_of_seqGt emptied.above)
      | beyond beyond =>
          rw [max] at beyond
          exact absurd emptied.sent beyond
      | duplicate _ same =>
          rw [una] at same
          exact absurd same emptied.not_una
      | new =>
          split
          · exact .inr rfl
          · exact .inl rfl

theorem reached_eq (s : Endpoint) (p : UdtPacket) :
    (s.reached p).sk.nextLayer = s.sk.nextLayer ∧
      (s.cb.state ≠ .synReceived → (s.reached p).sk.sndBuf.seq = s.sk.sndBuf.seq) ∧
      ∀ q ∈ (s.reached p).sk.sndBuf.pkts, q ∈ s.sk.sndBuf.pkts := by
  obtain ⟨side, state, alive⟩ := s.entered_stored p
  have buf : ((s.entered p).stored p).sk.sndBuf = s.sk.sndBuf := congrArg SendSide.sndBuf side
  obtain ⟨seq, fewer⟩ := ((s.entered p).stored p).acked_buf p
  obtain ⟨_, _, _, _, _, _, _, _, _, _, _, _, _, _, _, _, _, _, _, _, acked⟩ :=
    ((s.entered p).stored p).acked_eq p
  have kept : (((s.entered p).stored p).acked p).sk.nextLayer =
      ((s.entered p).stored p).sk.nextLayer := by rw [acked]
  rw [buf, state] at seq
  rw [buf] at fewer
  exact ⟨kept.trans alive, seq, fewer⟩

theorem EmptiedBy.emptied (emptied : s.EmptiedBy p) (sound : s.stock.Sound) :
    Emptied s (s.inputChecked p) := by
  cases taken : ((s.entered p).doHeaderPrediction p).1 with
  | true => exact emptied.predicted sound taken
  | false =>
      obtain ⟨alive, _, fewer⟩ := s.reached_eq p
      obtain ⟨gone, rest, _, _, _, _, split, _, kept, result⟩ := (s.reached p).ackNewData_eq p.hdr
      have none : rest = [] :=
        rest_nil split kept fun q member => emptied.behind q (fewer q member)
      have acked : Emptied s ((s.reached p).ackNewData p.hdr) := by
        rw [result, none]
        exact ⟨rfl, rfl, alive⟩
      rcases emptied.unpredicted taken with same | same <;> rw [same]
      · exact acked
      · obtain ⟨_, _, fin⟩ := ((s.reached p).ackNewData p.hdr).handleFin_eq
        rw [fin]
        split <;> exact ⟨acked.pkts, acked.write, acked.alive⟩

end Emptied

section Completes

theorem inner_write (path : BlockPath Tag.Inner s t) :
    t.cb.flags.notifyWrite = s.cb.flags.notifyWrite ∧ t.sk.nextLayer = s.sk.nextLayer := by
  have same := path_inner_steady path
  exact ⟨congrArg Steady.notifyWrite same, congrArg Steady.nextLayer same⟩

theorem commitRead_write (s : Endpoint) :
    s.commitOutput.commitReset.commitRead.cb.flags.notifyWrite = s.cb.flags.notifyWrite ∧
      s.commitOutput.commitReset.commitRead.sk.nextLayer = s.sk.nextLayer := by
  have output := inner_write s.commitOutput_blocks
  have reset : ∀ x : Endpoint, x.commitReset.cb.flags.notifyWrite = x.cb.flags.notifyWrite ∧
      x.commitReset.sk.nextLayer = x.sk.nextLayer := by
    intro x
    unfold commitReset
    split <;> exact ⟨rfl, rfl⟩
  have read : ∀ x : Endpoint, x.commitRead.cb.flags.notifyWrite = x.cb.flags.notifyWrite ∧
      x.commitRead.sk.nextLayer = x.sk.nextLayer := by
    intro x
    unfold commitRead
    split
    · have kept := inner_write x.notifyReadable_blocks
      exact ⟨kept.1, kept.2⟩
    · exact ⟨rfl, rfl⟩
  exact ⟨((read _).1.trans (reset _).1).trans output.1, ((read _).2.trans (reset _).2).trans output.2⟩

theorem commitWrite_late (due : s.cb.flags.notifyWrite = true) (alive : s.sk.nextLayer = true) :
    BlockPath Tag.Late s.consumePendingData.2 s.commitWrite := by
  rw [commitWrite, if_pos due, onWritable, if_pos alive]
  refine Trace.Path.trans ?_ (rest_path .writeDone)
  dsimp only
  split
  · exact inner_late (output_inner _)
  · exact .refl _

/-- An acknowledgement of everything in `snd_buf` completes an operation if the first one fits. -/
theorem empties_completes (sound : s.stock.Sound) (emptied : s.empties e = true)
    (ends : (s.step e).disconnects.length = s.disconnects.length) {op : SendOperation}
    {rest : List SendOperation} (queue : s.sk.sendOps = op :: rest)
    (fits : op.buf.size ≤ s.sk.sndBuf.hiwat.toNat) :
    (s.step e).completedSends ≠ s.completedSends := by
  obtain ⟨p, here, emptied⟩ := (Option.any_eq_true _ _).mp emptied
  obtain ⟨hdr, mem, n, buffer, rfl, alive, pending, good, rfl⟩ := arriving_inv here
  have emptied := (of_decide_eq_true emptied).emptied sound
  have step : s.step (.packet hdr mem n) =
      (s.inputChecked (hostPacket hdr mem buffer)).commitNotifies.received :=
    handleReceive_good alive pending good
  rw [step] at ends ⊢
  generalize checked : s.inputChecked (hostPacket hdr mem buffer) = x at emptied ends ⊢
  obtain ⟨soundX, first⟩ : x.stock.Sound ∧ s.stock.Lasts False x.stock :=
    phased_lasts (checked ▸ s.inputChecked_blocks) sound
  obtain ⟨write, kept⟩ := x.commitRead_write
  obtain ⟨soundZ, second⟩ : _ ∧ x.stock.Lasts False _ := late_lasts
    (((inner_late x.commitOutput_blocks).trans (commitReset_blocks _)).trans (commitRead_blocks _))
    soundX
  generalize reading : x.commitOutput.commitReset.commitRead = z at write kept soundZ second
  have due : z.cb.flags.notifyWrite = true := write.trans emptied.write
  have alive : z.sk.nextLayer = true := (kept.trans emptied.alive).trans alive
  have consumed : Stock.Step z.stock .inner z.consumePendingData.2.stock :=
    consumePendingData_stock soundZ
  have third : z.stock.Lasts False z.consumePendingData.2.stock :=
    consumed.lasts soundZ (by simp [Stock.Calm]) (by simp)
  have last : BlockPath Tag.Late z.consumePendingData.2 x.commitNotifies.received := by
    have commit : x.commitNotifies = z.commitWrite.commitDrop := by rw [← reading]; rfl
    rw [commit]
    exact ((commitWrite_late due alive).trans (commitDrop_blocks _)).trans (received_blocks _)
  obtain ⟨-, fourth⟩ : _ ∧ z.consumePendingData.2.stock.Lasts False _ :=
    late_lasts last (consumed.sound soundZ)
  intro same
  have ends : x.commitNotifies.received.stock.ends = s.stock.ends := ends
  have same : x.commitNotifies.received.stock.done = s.stock.done := same
  have order := And.intro first.1 (And.intro second.1 (And.intro third.1 fourth.1))
  have growth := And.intro (first.grows (by omega)) (And.intro (second.grows (by omega))
    (And.intro (third.grows (by omega)) (fourth.grows (by omega))))
  rw [same] at growth
  obtain ⟨⟨new, ops⟩, limit, -, -⟩ := first.still (by omega) (by omega)
  obtain ⟨⟨more, ops'⟩, limit', less, -⟩ := second.still (by omega) (by omega)
  obtain ⟨-, -, -, still⟩ := third.still (by omega) (by omega)
  have none : x.stock.total = 0 := by
    change totalLen x.sk.sndBuf.pkts = 0
    rw [emptied.pkts]
    rfl
  have front : z.sk.sendOps = op :: (rest ++ new ++ more) := by
    change z.stock.ops = _
    have before : s.stock.ops = op :: rest := queue
    rw [ops', ops, before, List.cons_append, List.cons_append]
  have hiwat : z.sk.sndBuf.hiwat = s.sk.sndBuf.hiwat := limit'.trans limit
  have some_ := (progress_iff soundZ (by omega) front).mpr (by rw [hiwat]; exact fits)
  exact consumePendingData_done soundZ some_ still

end Completes

section Fin

/-- Nothing is queued or stored, and the connection waits to send its FIN. -/
structure Finishing (x : Endpoint) : Prop where
  closing : x.cb.state.isClosing
  pkts : x.sk.sndBuf.pkts = []
  pending : x.sk.pendingData = 0
  nxt : ¬ seqLt x.cb.sndNxt x.sk.sndBuf.seq
  una : ¬ seqLt x.cb.sndUna x.sk.sndBuf.seq
  force : x.cb.force = false

theorem ViewPath_sentfin {C : View → Act → Prop} {v w : View} (path : ViewPath C v w)
    (sent : v.sentfin = true) : w.sentfin = true := by
  refine path.invariant (I := fun v => v.sentfin = true) sent ?_
  intro v a w sent _ step
  cases step with
  | transmit _ _ sends =>
      rw [sends.moved]
      change (v.sentfin || _) = true
      rw [sent, Bool.true_or]
  | _ => exact sent

theorem step_sentfin (s : Endpoint) (e : Event) (sent : s.cb.flags.sentfin = true) :
    (s.step e).cb.flags.sentfin = true :=
  ViewPath_sentfin (v := s.view) (s.step_path (C := fun _ _ => True) e (fun _ => trivial)
    (EventOk.of_all (fun _ _ _ _ => trivial) (fun _ _ _ => trivial) fun _ _ => trivial)) sent

theorem Finishing.pass (finishing : s.Finishing) : s.outputPass.2.2.cb.flags.sentfin = true := by
  have drained : s.outputConsume s.canSendBytes = s := by
    rw [outputConsume, if_neg (fun due => due.1 finishing.pending)]
  rw [outputPass]
  dsimp only
  rw [drained]
  cases select : s.outputSelect (s.outputForce s.canSendBytes) with
  | mk pkt u =>
      have chosen : pkt = none ∧ ¬ seqLt u.cb.sndNxt s.sk.sndBuf.seq ∧ u.sk = s.sk ∧
          u.cb.state = s.cb.state ∧ u.cb.force = s.cb.force ∧
          u.cb.flags.sentfin = s.cb.flags.sentfin := by
        have none : ∀ {front p back}, s.sk.sndBuf.pkts ≠ front ++ p :: back := by
          simp [finishing.pkts]
        cases outputSelect_selects select with
        | nothing => exact ⟨rfl, finishing.nxt, rfl, rfl, rfl, rfl⟩
        | closedWindow => exact ⟨rfl, finishing.una, rfl, rfl, rfl, rfl⟩
        | fresh queue => exact absurd queue none
        | again queue => exact absurd queue none
      obtain ⟨rfl, nxt, sk, state, force, fin⟩ := chosen
      have ready : (if ((none : Option UdtPacket).isSome && !u.cb.force) = true
        then { u with cb := u.cb.leavePersist } else u) = u := rfl
      have flags : u.outputFlags (Conn.pktLen none) = u.cb.state.outflags := by
        rw [Conn.outputFlags, sk, finishing.pending]
        exact if_neg (by simpa [Conn.pktLen] using nxt)
      have isFin : hasFin (u.outputFlags (Conn.pktLen none)) = true := by
        rw [flags, state]
        exact (TcpState.hasFin_outflags _).mpr finishing.closing
      have calm : u.probing = false := (u.not_probing_iff).mpr (.inl (force.trans finishing.force))
      dsimp only
      rw [ready, if_neg (show ¬ Conn.pktLen none ≠ 0 by simp [Conn.pktLen])]
      by_cases must : u.mustSend (u.outputFlags (Conn.pktLen none)) = true
      · rw [if_pos must]
        obtain ⟨_, _, _, _, _, _, result⟩ :=
          u.outputSend_eq (u.outputFlags (Conn.pktLen none)) none u.sk.rcvBuf.acc
        dsimp only
        rw [result, calm, isFin]
        exact Bool.or_true _
      · rw [if_neg must]
        have sent : u.cb.flags.sentfin = true := by
          by_contra unsent
          have unsent := Bool.eq_false_of_not_eq_true unsent
          have due : u.mustSend (u.outputFlags (Conn.pktLen none)) = true := by
            simp [Conn.mustSend, isFin, unsent]
          exact must due
        split
        · obtain ⟨_, _, result⟩ := enterPersist_eq { u with cb.rxtshift := 0 }
          rw [result]
          exact sent
        · exact sent

theorem Finishing.output (finishing : s.Finishing) : s.output.cb.flags.sentfin = true := by
  have alive : s.cb.state ≠ .closed := by
    rcases finishing.closing with state | state | state <;> rw [state] <;> decide
  have idle : s.outputIdle.Finishing := by
    unfold outputIdle UdtCb.slowStart
    split
    · split <;> exact ⟨finishing.1, finishing.2, finishing.3, finishing.4, finishing.5, finishing.6⟩
    · exact finishing
  have still : s.outputIdle.outputPass.2.2.cb.state ≠ .closed := by
    have open_ : s.outputIdle.cb.state ≠ .closed := by
      rcases idle.closing with state | state | state <;> rw [state] <;> decide
    rwa [(s.outputIdle.outputPass_path open_).2]
  have sent := idle.pass
  rw [Endpoint.output, if_neg alive, sendPacketsClamp, outputLoop]
  generalize s.outputIdle.outputPass = pass at sent still ⊢
  obtain ⟨d, _ | _, x⟩ := pass
  · exact sent
  · exact ViewPath_sentfin (v := x.view) (x.outputLoop_path 9 still) sent

theorem commitRest_sentfin (sent : s.commitOutput.cb.flags.sentfin = true) :
    s.commitNotifies.received.cb.flags.sentfin = true := by
  have reset : ∀ x : Endpoint, x.cb.flags.sentfin = true → x.commitReset.cb.flags.sentfin = true := by
    intro x sent
    unfold commitReset
    split <;> exact sent
  have read : ∀ x : Endpoint, x.cb.flags.sentfin = true → x.commitRead.cb.flags.sentfin = true := by
    intro x sent
    unfold commitRead notifyReadable
    split
    · split
      · exact ViewPath_sentfin (v := x.view) x.onReadable_path sent
      · exact sent
    · exact sent
  have write : ∀ x : Endpoint, x.cb.flags.sentfin = true → x.commitWrite.cb.flags.sentfin = true := by
    intro x sent
    unfold commitWrite
    split
    · exact ViewPath_sentfin (v := x.view) x.onWritable_path sent
    · exact sent
  have drop : ∀ x : Endpoint, x.cb.flags.sentfin = true → x.commitDrop.cb.flags.sentfin = true := by
    intro x sent
    unfold commitDrop
    split
    · exact ViewPath_sentfin (v := x.view) (x.drop_path _) sent
    · exact sent
  have committed : s.commitNotifies.cb.flags.sentfin = true :=
    drop _ (write _ (read _ (reset _ sent)))
  unfold received pktConsumed
  generalize s.commitNotifies = x at committed ⊢
  cases x.cb.flags.packetConsumed
  all_goals
    change (doReceive _).cb.flags.sentfin = true
    rw [doReceive_cb]
    exact committed

theorem reached_closing (closing : s.cb.state.isClosing) (unsent : s.cb.flags.sentfin = false)
    (p : UdtPacket) : (s.reached p).cb.state = s.cb.state ∧ (s.reached p).cb.force = s.cb.force ∧
      (s.reached p).sk.pendingData = s.sk.pendingData := by
  obtain ⟨side, state, _⟩ := s.entered_stored p
  have fin : ((s.entered p).stored p).cb.flags.sentfin = s.cb.flags.sentfin :=
    congrArg SendSide.sentfin side
  have pending : ((s.entered p).stored p).sk.pendingData = s.sk.pendingData :=
    congrArg SendSide.pendingData side
  have force : ((s.entered p).stored p).cb.force = s.cb.force := by
    obtain ⟨_, _, _, _, _, _, stored⟩ := (s.entered p).stored_eq p
    obtain ⟨_, _, _, _, _, _, _, entered⟩ := s.entered_eq p
    rw [stored, entered]
  obtain ⟨_, _, _, _, _, _, _, _, _, _, _, _, _, _, _, _, _, _, _, _, acked⟩ :=
    ((s.entered p).stored p).acked_eq p
  have waits : s.cb.state.acked false = s.cb.state := by
    rcases closing with state | state | state <;> rw [state] <;> rfl
  rw [reached, acked]
  refine ⟨?_, force, pending⟩
  dsimp only
  rw [state, fin, unsent, waits, ite_self]

/-- The acknowledgement of everything leaves no number of the sender behind. -/
structure Caught (s x : Endpoint) : Prop where
  state : x.cb.state = s.cb.state
  pending : x.sk.pendingData = s.sk.pendingData
  force : x.cb.force = s.cb.force
  nxt : ¬ seqLt x.cb.sndNxt x.sk.sndBuf.seq
  una : ¬ seqLt x.cb.sndUna x.sk.sndBuf.seq
  need : x.cb.flags.needOutput = true

theorem ackNewData_caught {ti : UdtHdr} (seq : s.sk.sndBuf.seq = ti.ack) :
    Caught s (s.ackNewData ti) := by
  obtain ⟨gone, rest, _, _, _, _, _, _, _, result⟩ := s.ackNewData_eq ti
  have buf : (s.ackNewData ti).sk.sndBuf.seq = ti.ack := by
    rw [result]
    exact seq
  have una : (s.ackNewData ti).cb.sndUna = ti.ack := by rw [result]
  have nxt : (s.ackNewData ti).cb.sndNxt =
      if seqLt s.cb.sndNxt ti.ack then ti.ack else s.cb.sndNxt := by rw [result]
  refine ⟨by rw [result], by rw [result], by rw [result], ?_, ?_, by rw [result]⟩
  · rw [buf, nxt]
    split
    · exact seqLt_irrefl _
    · assumption
  · rw [buf, una]
    exact seqLt_irrefl _

theorem EmptiedBy.finishing (emptied : s.EmptiedBy p) (sound : s.stock.Sound)
    (closing : s.cb.state.isClosing) (unsent : s.cb.flags.sentfin = false)
    (force : s.cb.force = false) (none : s.sk.sendOps = []) :
    (s.inputChecked p).Finishing ∧ (s.inputChecked p).cb.flags.needOutput = true := by
  have holds := (emptied.emptied sound).pkts
  have missed : ((s.entered p).doHeaderPrediction p).1 = false := by
    by_contra taken
    have state := (predicts_of_taken (Bool.eq_true_of_not_eq_false taken)).state
    rw [s.entered_state p] at state
    rcases closing with other | other | other <;> rw [state] at other <;> contradiction
  have pending : s.sk.pendingData = 0 := by
    have counted : s.sk.pendingData = BitVec.ofNat 32 (opsLen s.sk.sendOps) := sound.pending
    rw [counted, none]
    rfl
  obtain ⟨_, seq, _⟩ := s.reached_eq p
  obtain ⟨state, force', pending'⟩ := reached_closing closing unsent p
  have seq : (s.reached p).sk.sndBuf.seq = p.hdr.ack := by
    refine (seq ?_).trans emptied.all.symm
    rcases closing with state | state | state <;> rw [state] <;> decide
  have caught := ackNewData_caught seq
  have same := emptied.unpredicted missed
  generalize (s.reached p).ackNewData p.hdr = z at caught same ⊢
  have closing : z.cb.state.isClosing := by rwa [caught.state, state]
  have pending : z.sk.pendingData = 0 := (caught.pending.trans pending').trans pending
  have force : z.cb.force = false := (caught.force.trans force').trans force
  rcases same with same | same <;> rw [same] at holds ⊢
  · exact ⟨⟨closing, holds, pending, caught.nxt, caught.una, force⟩, caught.need⟩
  · have finned : z.cb.state.finned.isClosing := by
      rcases closing with state | state | state <;> rw [state] <;> decide
    obtain ⟨_, _, fin⟩ := z.handleFin_eq
    by_cases again : z.cb.TCPS_HAVERCVDFIN = true
    · rw [fin, if_pos again] at holds ⊢
      exact ⟨⟨finned, holds, pending, caught.nxt, caught.una, force⟩, caught.need⟩
    · rw [fin, if_neg again] at holds ⊢
      exact ⟨⟨finned, holds, pending, caught.nxt, caught.una, force⟩, caught.need⟩

theorem empties_fin (sound : s.stock.Sound) (emptied : s.empties e = true)
    (closing : s.cb.state.isClosing) (force : s.cb.force = false) (none : s.sk.sendOps = []) :
    (s.step e).cb.flags.sentfin = true := by
  by_cases sent : s.cb.flags.sentfin = true
  · exact s.step_sentfin e sent
  obtain ⟨p, here, emptied⟩ := (Option.any_eq_true _ _).mp emptied
  obtain ⟨hdr, mem, n, buffer, rfl, alive, pending, good, rfl⟩ := arriving_inv here
  have emptied := of_decide_eq_true emptied
  have step : s.step (.packet hdr mem n) =
      (s.inputChecked (hostPacket hdr mem buffer)).commitNotifies.received :=
    handleReceive_good alive pending good
  obtain ⟨finishing, need⟩ :=
    emptied.finishing sound closing (Bool.eq_false_of_not_eq_true sent) force none
  rw [step]
  apply commitRest_sentfin
  rw [commitOutput, if_pos (by rw [need, Bool.or_true])]
  exact finishing.output

end Fin

section Run

/-- The connection goes on, and the user neither cancels nor moves the limit. -/
structure Undisturbed (s : Endpoint) (e : Event) : Prop where
  calm : e.disturbs = false
  lasts : (s.step e).disconnects.length = s.disconnects.length
  open_ : (s.step e).cb.state ≠ .closed

instance (s : Endpoint) (e : Event) : Decidable (s.Undisturbed e) :=
  decidable_of_iff (e.disturbs = false ∧ (s.step e).disconnects.length = s.disconnects.length ∧
      (s.step e).cb.state ≠ .closed)
    ⟨fun ⟨a, b, c⟩ => ⟨a, b, c⟩, fun ⟨a, b, c⟩ => ⟨a, b, c⟩⟩

theorem Undisturbed.serves (undisturbed : s.Undisturbed e) (sound : s.stock.Sound) :
    (s.step e).stock.Sound ∧ ∃ new taken, s.stock.Serves new taken (s.step e).stock ∧
      (new ≠ [] → ∃ op, e = .send op) := by
  have calm : e ≠ .cancel ∧ e ≠ .close ∧ ∀ v, e ≠ .setSndBuf v := by
    have calm := undisturbed.calm
    cases e <;> simp_all [Event.disturbs]
  obtain ⟨after, lasts⟩ := step_lasts calm sound
  exact ⟨after, lasts.2 undisturbed.lasts⟩

/-- While nothing disturbs the connection, as many operations of the queue complete as fit and find
acknowledgements of everything in `snd_buf`. -/
theorem run_serves (met : Trace.Meets step Undisturbed s fs) (sound : s.stock.Sound) :
    (s.run fs).stock.Sound ∧ ∃ new taken, s.stock.Serves new taken (s.run fs).stock ∧
      ∀ k ≤ s.sk.sendOps.length, (∀ op ∈ s.sk.sendOps.take k, op.buf.size ≤ s.sk.sndBuf.hiwat.toNat) →
        k ≤ s.emptyings fs → k ≤ taken.length := by
  induction fs generalizing s with
  | nil => exact ⟨sound, [], [], .refl _, fun k _ _ few => few⟩
  | cons e fs ih =>
      obtain ⟨undisturbed, met⟩ := met
      obtain ⟨after, new, taken, serves, -⟩ := undisturbed.serves sound
      obtain ⟨last, more, others, serves', count⟩ := ih met after
      refine ⟨last, new ++ more, taken ++ others, serves.trans serves', fun k inside fit few => ?_⟩
      rw [List.length_append]
      by_cases early : k ≤ taken.length
      · omega
      have queue : s.sk.sendOps ++ new = taken ++ (s.step e).sk.sendOps := serves.queue
      have lengths := congrArg List.length queue
      rw [List.length_append, List.length_append] at lengths
      -- the step has taken an operation if it emptied the buffer
      have part : k - taken.length ≤ (s.step e).emptyings fs := by
        rw [emptyings] at few
        by_cases emptied : s.empties e = true
        · rw [if_pos emptied] at few
          obtain ⟨op, rest, front⟩ : ∃ op rest, s.sk.sendOps = op :: rest :=
            List.exists_cons_of_length_pos (by omega)
          have first : op.buf.size ≤ s.sk.sndBuf.hiwat.toNat := by
            refine fit op ?_
            rw [front]
            obtain ⟨j, rfl⟩ : ∃ j, k = j + 1 := ⟨k - 1, by omega⟩
            exact List.mem_cons_self
          have moved := empties_completes sound emptied undisturbed.lasts front first
          have done : (s.step e).completedSends = s.completedSends ++ taken := serves.done
          have some_ : taken ≠ [] := by
            rintro rfl
            exact moved (done.trans (List.append_nil _))
          have one := List.length_pos_iff.mpr some_
          omega
        · rw [if_neg emptied] at few
          omega
      have rest := count (k - taken.length) (by omega) ?_ part
      · omega
      · intro op member
        have limit : (s.step e).sk.sndBuf.hiwat = s.sk.sndBuf.hiwat := serves.hiwat
        rw [limit]
        refine fit op ?_
        have whole : s.sk.sendOps.take k = taken ++ (s.step e).sk.sendOps.take (k - taken.length) := by
          have front : (s.sk.sendOps ++ new).take k = s.sk.sendOps.take k :=
            List.take_append_of_le_length inside
          rw [← front, queue, List.take_append, List.take_of_length_le (by omega)]
        rw [whole]
        exact List.mem_append_right _ member

theorem path_waits {v w : View} (path : ViewPath (fun v a => a = .connect ∨ a = .accept → v.state ≠ .closed) v w)
    (waits : v.sentfin = true ∨ v.state.isClosing) :
    w.sentfin = true ∨ w.state.isClosing ∨ w.state = .closed := by
  have waits : v.sentfin = true ∨ v.state.isClosing ∨ v.state = .closed := waits.imp_right .inl
  refine path.invariant
    (I := fun v => v.sentfin = true ∨ v.state.isClosing ∨ v.state = .closed) waits ?_
  intro v a w waits met step
  by_cases sent : v.sentfin = true
  · exact .inl (ViewPath_sentfin (C := fun _ _ => True) (.single trivial step) sent)
  have state : v.state.isClosing ∨ v.state = .closed := waits.resolve_left sent
  cases step with
  | transmit _ _ sends =>
      rw [sends.moved]
      exact .inr state
  | ackAll =>
      have unsent := Bool.eq_false_of_not_eq_true sent
      refine .inr ?_
      dsimp only
      rw [unsent]
      rcases state with (state | state | state) | state <;> rw [state] <;> decide
  | syn handshake =>
      rcases state with (state | state | state) | state <;> rw [state] at handshake <;>
        simp at handshake
  | fin =>
      refine .inr ?_
      dsimp only
      rcases state with (state | state | state) | state <;> rw [state] <;> decide
  | shutdown =>
      refine .inr ?_
      dsimp only
      rcases state with (state | state | state) | state <;> rw [state] <;> decide
  | closed | close => exact .inr (.inr rfl)
  | connect closed => exact absurd closed (met (.inl rfl))
  | accept closed => exact absurd closed (met (.inr rfl))
  | _ => exact .inr state

theorem Undisturbed.waits (undisturbed : s.Undisturbed e) (closing : s.cb.state.isClosing)
    (unsent : (s.step e).cb.flags.sentfin = false) : (s.step e).cb.state.isClosing := by
  have alive : s.doReceive.cb.state ≠ .closed := by
    rw [doReceive_cb]
    rcases closing with state | state | state <;> rw [state] <;> decide
  have path : ViewPath (fun v a => a = .connect ∨ a = .accept → v.state ≠ .closed) s.view
      (s.step e).view := by
    refine s.step_path e (by simp) ?_
    cases e with
    | packet hdr mem n =>
        refine fun _ _ _ => PacketOk.of_all fun v a packet => ?_
        rintro (rfl | rfl) <;> exact False.elim packet
    | connect h => exact fun _ => alive
    | accept h => exact fun _ => alive
    | _ => first | trivial | simp [EventOk]
  rcases path_waits path (.inr closing) with sent | state | state
  · have sent : (s.step e).cb.flags.sentfin = true := sent
    rw [unsent] at sent
    contradiction
  · exact state
  · exact absurd state undisturbed.open_

/-- A connection that waits to send its FIN sends it once the queue has emptied and `snd_buf` after it,
unless the user sends more. -/
theorem run_fin (met : Trace.Meets step Undisturbed s fs) (sound : s.stock.Sound)
    (force : s.cb.force = false) (closing : s.cb.state.isClosing)
    (quiet : ∀ e ∈ fs, ∀ op, e ≠ .send op)
    (fit : ∀ op ∈ s.sk.sendOps, op.buf.size ≤ s.sk.sndBuf.hiwat.toNat)
    (many : s.sk.sendOps.length < s.emptyings fs) : (s.run fs).cb.flags.sentfin = true := by
  induction fs generalizing s with
  | nil => exact absurd many (Nat.not_lt_zero _)
  | cons e fs ih =>
      obtain ⟨undisturbed, met⟩ := met
      obtain ⟨here, later⟩ := List.forall_mem_cons.mp quiet
      by_cases sent : (s.step e).cb.flags.sentfin = true
      · exact met.invariant (I := fun x : Endpoint => x.cb.flags.sentfin = true) sent
          fun x e sent _ => x.step_sentfin e sent
      have unsent := Bool.eq_false_of_not_eq_true sent
      obtain ⟨after, new, taken, serves, only⟩ := undisturbed.serves sound
      have none : new = [] := by
        by_contra some_
        obtain ⟨op, same⟩ := only some_
        exact here op same
      have queue : s.sk.sendOps = taken ++ (s.step e).sk.sendOps := by
        have queue : s.sk.sendOps ++ new = taken ++ (s.step e).sk.sendOps := serves.queue
        rwa [none, List.append_nil] at queue
      have limit : (s.step e).sk.sndBuf.hiwat = s.sk.sndBuf.hiwat := serves.hiwat
      have length := congrArg List.length queue
      rw [List.length_append] at length
      refine ih met after (s.step_force e force) (undisturbed.waits closing unsent) later ?_ ?_
      · intro op member
        rw [limit]
        exact fit op (by rw [queue]; exact List.mem_append_right _ member)
      · rw [emptyings] at many
        by_cases emptied : s.empties e = true
        · rw [if_pos emptied] at many
          rcases front : s.sk.sendOps with _ | ⟨op, rest⟩
          · exact absurd (empties_fin sound emptied closing force front) sent
          · have moved := empties_completes sound emptied undisturbed.lasts front
              (fit op (by rw [front]; exact List.mem_cons_self))
            have done : (s.step e).completedSends = s.completedSends ++ taken := serves.done
            have some_ : taken ≠ [] := by
              rintro rfl
              exact moved (done.trans (List.append_nil _))
            have one := List.length_pos_iff.mpr some_
            omega
        · rw [if_neg emptied] at many
          omega

end Run

/-- The operation is not longer than the whole buffer. -/
def Short (s : Endpoint) (op : SendOperation) : Prop := op.buf.size ≤ s.sk.sndBuf.hiwat.toNat

/-- The limit has not been lowered below what `snd_buf` holds. -/
def Within (s : Endpoint) : Prop := totalLen s.sk.sndBuf.pkts ≤ s.sk.sndBuf.hiwat.toNat

/-- The first `k` operations of the queue have completed after the events. -/
def Completes (s : Endpoint) (fs : List Event) (k : Nat) : Prop :=
  s.completedSends ++ s.sk.sendOps.take k <+: (s.run fs).completedSends

theorem run_completes {k : Nat} (met : Trace.Meets step Undisturbed s fs) (sound : s.stock.Sound)
    (inside : k ≤ s.sk.sendOps.length) :
    (k ≤ s.emptyings fs → (∀ op ∈ s.sk.sendOps.take k, s.Short op) → s.Completes fs k) ∧
      (s.Within → s.Completes fs k → ∀ op ∈ s.sk.sendOps.take k, s.Short op) := by
  obtain ⟨-, new, taken, serves, count⟩ := run_serves met sound
  have queue : s.sk.sendOps ++ new = taken ++ (s.run fs).sk.sendOps := serves.queue
  have done : (s.run fs).completedSends = s.completedSends ++ taken := serves.done
  refine ⟨fun few fit => ?_, fun within completed => ?_⟩
  · have long := count k inside fit few
    have front : s.sk.sendOps.take k = taken.take k := by
      have first : (s.sk.sendOps ++ new).take k = s.sk.sendOps.take k :=
        List.take_append_of_le_length inside
      rw [← first, queue, List.take_append_of_le_length long]
    rw [Completes, done, front]
    exact (List.prefix_append_right_inj _).mpr (List.take_prefix k taken)
  · rw [Completes, done, List.prefix_append_right_inj] at completed
    exact fun op member => (serves.room within).2 op (completed.subset member)

theorem fin_short (met : Trace.Meets step Undisturbed s fs) (sound : s.stock.Sound) (within : s.Within)
    (laid : (s.run fs).sender.Laid) (sent : (s.run fs).cb.flags.sentfin = true) :
    ∀ op ∈ s.sk.sendOps, s.Short op := by
  obtain ⟨last, new, taken, serves, -⟩ := run_serves met sound
  have queue : s.sk.sendOps ++ new = taken ++ (s.run fs).sk.sendOps := serves.queue
  have none : opsLen (s.run fs).sk.sendOps = 0 := (laid.fin sent).2.1
  have empty : (s.run fs).sk.sendOps = [] := by
    rw [List.eq_nil_iff_forall_not_mem]
    intro op member
    have filled : op.Filled := last.filled op member
    have part : op.buf.size ≤ opsLen (s.run fs).sk.sendOps :=
      List.le_sum_of_mem (List.mem_map_of_mem member)
    exact filled.1 (by omega)
  rw [empty, List.append_nil] at queue
  intro op member
  exact (serves.room within).2 op (queue ▸ List.mem_append_left _ member)

/-- Where `snd_buf` holds nothing the queue moves on exactly when its first operation is not longer than
the buffer's limit. From any state on, while nothing disturbs the connection, as many operations complete
as find acknowledgements of everything in `snd_buf`, and the FIN of a shutdown goes out behind them,
exactly when none of them is longer. -/
theorem queued_send_progress_iff (fack sndSeq rcvSeq : Word) (env : Env) (es : List Event) :
    let s := (init fack sndSeq rcvSeq env).run es
    (s.sk.sndBuf.pkts = [] → ∀ op rest, s.sk.sendOps = op :: rest →
      (0 < s.consumePendingData.1 ↔ s.Short op)) ∧
    ∀ fs, Trace.Meets step Undisturbed s fs →
      (∀ k ≤ s.sk.sendOps.length,
        (k ≤ s.emptyings fs → (∀ op ∈ s.sk.sendOps.take k, s.Short op) → s.Completes fs k) ∧
        (s.Within → s.Completes fs k → ∀ op ∈ s.sk.sendOps.take k, s.Short op)) ∧
      (s.cb.state.isClosing → (∀ e ∈ fs, ∀ op, e ≠ .send op) →
        s.sk.sendOps.length < s.emptyings fs → (∀ op ∈ s.sk.sendOps, s.Short op) →
        (s.run fs).cb.flags.sentfin = true) ∧
      (s.Within → Trace.Meets step Regular (init fack sndSeq rcvSeq env) (es ++ fs) →
        (s.run fs).sk.nextLayer = true → (s.run fs).connected = true →
        (s.run fs).cb.flags.sentfin = true → ∀ op ∈ s.sk.sendOps, s.Short op) := by
  have sound := run_sound fack sndSeq rcvSeq env es
  have force : ((init fack sndSeq rcvSeq env).run es).cb.force = false := by
    have met : Trace.Meets step (fun _ _ => True) (init fack sndSeq rcvSeq env) es :=
      .trivial_of es fun _ _ => trivial
    exact met.invariant (I := fun x : Endpoint => x.cb.force = false) rfl
      fun x e down _ => x.step_force e down
  have split : ∀ fs, (init fack sndSeq rcvSeq env).run (es ++ fs) =
      ((init fack sndSeq rcvSeq env).run es).run fs := fun fs => List.foldl_append
  intro s
  refine ⟨fun empty op rest queue => ?_, fun fs met => ⟨fun k inside => run_completes met sound inside,
    fun closing quiet many fit => run_fin met sound force closing quiet fit many,
    fun within regular alive open_ sent => ?_⟩⟩
  · refine progress_iff sound ?_ queue
    change totalLen s.sk.sndBuf.pkts = 0
    rw [empty]
    rfl
  · rw [← split] at alive open_
    have laid := (run_open regular alive open_).laid
    rw [split] at laid
    exact fin_short met sound within laid sent

/-- A connection with a limit of two bytes, which two of the five hold; a shutdown waits. -/
def held : List Event :=
  [.connect 0, .datagram ⟨0, UdtHdr.TH_SYN ||| UdtHdr.TH_ACK, 1000, 0, 20, 100, 1, 0⟩ [],
    .setSndBuf 2, .send (Pipeline.sending [1, 2] (by decide) 7),
    .send (Pipeline.sending [3, 4] (by decide) 8), .send (Pipeline.sending [5] (by decide) 9), .shutdown 0]

/-- The peer acknowledges everything in `snd_buf`, three times. -/
def acknowledgements : List Event :=
  [.datagram ⟨0, UdtHdr.TH_ACK, 1000, 0, 20, 101, 3, 0⟩ [],
    .datagram ⟨0, UdtHdr.TH_ACK, 1000, 0, 20, 101, 5, 0⟩ [],
    .datagram ⟨0, UdtHdr.TH_ACK, 1000, 0, 20, 101, 6, 0⟩ []]

theorem queued_send_progress_held :
    ((init 0 0 0 Env.zero).run held).sk.sendOps.map (·.buf.size) = [2, 1] ∧
      ((init 0 0 0 Env.zero).run held).Completes acknowledgements 2 ∧
      (((init 0 0 0 Env.zero).run held).run acknowledgements).cb.flags.sentfin = true := by
  have sizes : ((init 0 0 0 Env.zero).run held).sk.sendOps.map (·.buf.size) = [2, 1] := by
    decide +kernel
  have limit : ((init 0 0 0 Env.zero).run held).sk.sndBuf.hiwat = 2 := by decide +kernel
  have met : Trace.Meets step Undisturbed ((init 0 0 0 Env.zero).run held) acknowledgements := by
    decide +kernel
  have many : ((init 0 0 0 Env.zero).run held).emptyings acknowledgements = 3 := by decide +kernel
  have closing : ((init 0 0 0 Env.zero).run held).cb.state = .finWait1 := by decide +kernel
  have short : ∀ op ∈ ((init 0 0 0 Env.zero).run held).sk.sendOps,
      ((init 0 0 0 Env.zero).run held).Short op := by
    intro op member
    have size := List.mem_map_of_mem (f := fun op : SendOperation => op.buf.size) member
    rw [sizes] at size
    rw [Short, limit]
    have size : op.buf.size = 2 ∨ op.buf.size = 1 := by simpa using size
    change op.buf.size ≤ 2
    omega
  have length : ((init 0 0 0 Env.zero).run held).sk.sendOps.length = 2 := by
    simpa using congrArg List.length sizes
  obtain ⟨completes, fin, -⟩ := (queued_send_progress_iff 0 0 0 Env.zero held).2 acknowledgements met
  refine ⟨sizes, (completes 2 length.ge).1 (by omega) fun op member => short op (List.mem_of_mem_take member),
    fin (.inl closing) ?_ (by omega) short⟩
  simp [acknowledgements, Event.datagram]

/-- Without disturbance an operation of two bytes stays behind a limit of one. -/
theorem long_send_stuck :
    let s := (init 0 0 0 Env.zero).run
      [.connect 0, .datagram ⟨0, UdtHdr.TH_SYN ||| UdtHdr.TH_ACK, 1000, 0, 20, 100, 1, 0⟩ [],
        .setSndBuf 1, .send (Pipeline.sending [1, 2] (by decide) 7)]
    s.cb.state = .established ∧ s.connected = true ∧ s.sk.sendOps.length = 1 ∧
      s.sk.sndBuf.pkts = [] ∧ s.consumePendingData.1 = 0 := by
  decide +kernel

end Endpoint

end UdtBoost
