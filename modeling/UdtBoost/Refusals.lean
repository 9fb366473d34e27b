import UdtBoost.Outcome
import UdtBoost.DelayedAck
import UdtBoost.Handlers

/-! What a refused segment leaves behind. `input` works in stages, and each refusal comes after some
of them: `handle_syn` has set the send window by then, and `TCP_REASS` has stored the payload. Behind
`the_end` the refusal is answered, with an acknowledgement or the end of the connection. -/
namespace UdtBoost

/-- What the two halves of the connection send and receive by. -/
structure DataPlane where
  rcvBuf : UdtRcvBuf
  rcvNxt : Word
  sndBuf : UdtBuf
  sndUna : Word
  sndNxt : Word
  sndMax : Word
  sndWnd : Word

/-- What the waiting receives leave when an error ends them: each takes what fits its buffer. -/
def UdtRcvBuf.handedTo (b : UdtRcvBuf) : List RecvOperation → UdtRcvBuf
  | [] => b
  | op :: ops => handedTo { b with toUdtBuf := (b.toUdtBuf.copy op.buf.size.toNat true).2 } ops

theorem UdtRcvBuf.handedTo_reasmPkts (b : UdtRcvBuf) (ops : List RecvOperation) :
    (b.handedTo ops).reasmPkts = b.reasmPkts := by
  induction ops generalizing b with
  | nil => rfl
  | cons op ops ih => exact ih _

namespace Endpoint

variable {s t : Endpoint} {p : UdtPacket}

def dataPlane (s : Endpoint) : DataPlane where
  rcvBuf := s.sk.rcvBuf
  rcvNxt := s.cb.rcvNxt
  sndBuf := s.sk.sndBuf
  sndUna := s.cb.sndUna
  sndNxt := s.cb.sndNxt
  sndMax := s.cb.sndMax
  sndWnd := s.cb.sndWnd

/-- Both directions have been synchronised. -/
def Synchronised (s : Endpoint) : Prop := TcpState.established.value ≤ s.cb.state.value

instance (s : Endpoint) : Decidable s.Synchronised := inferInstanceAs (Decidable (_ ≤ _))

/-- `handle_syn` returns true. -/
structure RefusesSyn (s : Endpoint) (p : UdtPacket) : Prop where
  admitted : s.admits p.hdr = true
  isSyn : hasSyn p.hdr.flags = true
  refused : ((s.entered p).handleSyn p).1 = true

/-- `handle_ack` finds the acknowledgement beyond `m_snd_max`. -/
structure RefusesAck (s : Endpoint) (p : UdtPacket) : Prop where
  admitted : s.admits p.hdr = true
  missed : ((s.entered p).doHeaderPrediction p).1 = false
  taken : hasSyn p.hdr.flags = true → ((s.entered p).handleSyn p).1 = false
  isAck : hasAck p.hdr.flags = true
  fresh : ¬ seqLt p.hdr.ack ((s.synced p).stored p.counted).cb.sndUna
  beyond : seqGt p.hdr.ack ((s.synced p).stored p.counted).cb.sndMax

def Refuses (s : Endpoint) (p : UdtPacket) : Prop := s.RefusesSyn p ∨ s.RefusesAck p

/-- `TCP_REASS` cannot store the packet: the scan of the queue stops at its start, or it comes next
and does not fit. -/
def Unstorable (s : Endpoint) (p : UdtPacket) : Prop :=
  (∃ below x above, s.sk.rcvBuf.reasmPkts = below ++ x :: above ∧
      (∀ y ∈ below, seqLt y.hdr.seq p.hdr.seq) ∧ x.hdr.seq = p.hdr.seq) ∨
    p.hdr.seq = s.cb.rcvNxt ∧ s.sk.rcvBuf.reasmPkts = [] ∧
      s.sk.rcvBuf.acc.toNat < p.hdr.len.toNat

theorem TCP_REASS_unstorable (full : s.Unstorable p) :
    (s.TCP_REASS p).dataPlane = s.dataPlane := by
  rcases full with ⟨below, x, above, queue, before, same⟩ | ⟨next, empty, full⟩
  · have occupied : ¬ (p.hdr.seq = s.cb.rcvNxt ∧ s.sk.rcvBuf.reasmPkts = []) := by simp [queue]
    have known : insertReasm p s.sk.rcvBuf.reasmPkts = none := by
      rw [queue, insertReasm_append before, insertReasm, if_neg (same ▸ seqLt_irrefl _),
        if_pos same, Option.map_none]
    rw [TCP_REASS, if_neg occupied, tcpReass, known]
    rfl
  · rw [TCP_REASS, if_pos ⟨next, empty⟩, rcvBuf_append_refused full]

/-- A packet that is stored shows, if only in the number of packets. -/
theorem TCP_REASS_dataPlane_iff (s : Endpoint) (p : UdtPacket) :
    (s.TCP_REASS p).dataPlane = s.dataPlane ↔ s.Unstorable p := by
  refine ⟨fun same => ?_, TCP_REASS_unstorable⟩
  rcases s.TCP_REASS_spec p with unstored | ⟨below, above, run, kept, stored⟩
  · exact unstored.reason
  · obtain ⟨flags, _, _, result⟩ := stored.result
    rw [result] at same
    have buf : s.sk.rcvBuf.take run kept = s.sk.rcvBuf := congrArg DataPlane.rcvBuf same
    have pkts : s.sk.rcvBuf.pkts ++ run = s.sk.rcvBuf.pkts :=
      congrArg (fun b : UdtRcvBuf => b.pkts) buf
    have queue : kept = s.sk.rcvBuf.reasmPkts := congrArg UdtRcvBuf.reasmPkts buf
    have none : run = [] := by simpa using pkts
    have longer := congrArg List.length stored.split
    rw [none, queue, stored.queue] at longer
    simp at longer

theorem stored_dataPlane_iff (s : Endpoint) (p : UdtPacket) :
    (s.stored p).dataPlane = s.dataPlane ↔ (needsReass p.hdr → s.Unstorable p) := by
  unfold stored
  split
  · next needs => rw [TCP_REASS_dataPlane_iff, forall_prop_of_true needs]
  · next bare => exact ⟨fun _ needs => absurd needs bare, fun _ => rfl⟩

theorem entered_dataPlane (s : Endpoint) (p : UdtPacket) :
    (s.entered p).dataPlane = s.dataPlane := by
  obtain ⟨_, _, _, _, _, _, _, result⟩ := s.entered_eq p
  rw [result]
  rfl

/-- Outside the handshake a SYN sets the send window, whatever becomes of it. -/
theorem handleSyn_late (synchronised : s.Synchronised) (p : UdtPacket) :
    ∃ wl1 wl2 tKeep, ((s.entered p).handleSyn p).2.2 =
      { s.entered p with
        cb.sndWnd := p.hdr.win.setWidth 32, cb.sndWl1 := wl1, cb.sndWl2 := wl2, cb.tKeep := tKeep
        cb.flags.acknow := true } := by
  obtain ⟨wl1, wl2, tKeep, result⟩ := (s.entered p).handleSyn_eq p
  have later : ¬ ((s.entered p).cb.state = .listen ∨ (s.entered p).cb.state = .synSent ∨
      (s.entered p).cb.state = .synReceived) := by
    unfold Synchronised at synchronised
    rw [s.entered_state p]
    rintro (state | state | state) <;> rw [state] at synchronised <;>
      simp [TcpState.value] at synchronised
  rw [if_neg later] at result
  exact ⟨wl1, wl2, tKeep, result⟩

theorem synced_dataPlane (synchronised : s.Synchronised) (p : UdtPacket) :
    (s.synced p).dataPlane = if hasSyn p.hdr.flags
      then { s.dataPlane with sndWnd := p.hdr.win.setWidth 32 } else s.dataPlane := by
  unfold synced
  split
  · obtain ⟨_, _, _, result⟩ := handleSyn_late synchronised p
    rw [result, ← s.entered_dataPlane p]
    rfl
  · exact s.entered_dataPlane p

theorem synced_receiver (synchronised : s.Synchronised) (p : UdtPacket) :
    (s.synced p).sk.rcvBuf = s.sk.rcvBuf ∧ (s.synced p).cb.rcvNxt = s.cb.rcvNxt := by
  have synced := synced_dataPlane synchronised p
  split at synced
  · exact ⟨congrArg DataPlane.rcvBuf synced, congrArg DataPlane.rcvNxt synced⟩
  · exact ⟨congrArg DataPlane.rcvBuf synced, congrArg DataPlane.rcvNxt synced⟩

theorem synced_sndWnd_iff (synchronised : s.Synchronised) (p : UdtPacket) :
    (s.synced p).dataPlane = s.dataPlane ↔
      (hasSyn p.hdr.flags = true → p.hdr.win.setWidth 32 = s.cb.sndWnd) := by
  rw [synced_dataPlane synchronised]
  split
  · next isSyn =>
      constructor
      · exact fun same _ => congrArg DataPlane.sndWnd same
      · intro win
        rw [win isSyn]
        rfl
  · next plain => exact ⟨fun _ isSyn => absurd isSyn plain, fun _ => rfl⟩

theorem doHeaderPrediction_syn (isSyn : hasSyn p.hdr.flags = true) :
    (s.doHeaderPrediction p).1 = false := by
  rw [doHeaderPrediction]
  dsimp only
  refine congrArg Prod.fst (if_neg ?_)
  rintro ⟨_, flags, _⟩
  have noSyn := (predicted_flags _ flags).1
  rw [isSyn] at noSyn
  contradiction

theorem RefusesSyn.eq (refuses : s.RefusesSyn p) : s.inputChecked p = s.synced p := by
  have missed := doHeaderPrediction_syn (s := s.entered p) refuses.isSyn
  have outcome := s.inputChecked_outcome p
  generalize s.inputChecked p = x at outcome ⊢
  cases outcome with
  | ignored refused | hangup refused | outside refused =>
      rw [refuses.admitted] at refused
      contradiction
  | ackPredicted _ _ _ _ _ _ taken | storePredicted _ _ _ _ taken =>
      rw [missed] at taken
      contradiction
  | synRefused => rfl
  | segment _ _ taken =>
      have goes := taken refuses.isSyn
      rw [refuses.refused] at goes
      contradiction

theorem RefusesAck.eq (refuses : s.RefusesAck p) : s.inputChecked p =
    { (s.synced p).stored p.counted with
      cb.lastError := .malformedPacket
      cb.flags.notifyDrop := true
      cb.flags.needReset := true } := by
  have counted : p.counted.hdr.ack = p.hdr.ack ∧ p.counted.hdr.flags = p.hdr.flags := by
    unfold UdtPacket.counted
    split <;> exact ⟨rfl, rfl⟩
  have outcome := s.inputChecked_outcome p
  generalize s.inputChecked p = x at outcome ⊢
  cases outcome with
  | ignored refused | hangup refused | outside refused =>
      rw [refuses.admitted] at refused
      contradiction
  | ackPredicted _ _ _ _ _ _ taken | storePredicted _ _ _ _ taken =>
      rw [refuses.missed] at taken
      contradiction
  | synRefused _ isSyn refused =>
      have goes := refuses.taken isSyn
      rw [refused] at goes
      contradiction
  | segment =>
      have fresh := refuses.fresh
      have beyond := refuses.beyond
      rw [← counted.1] at fresh beyond
      rw [inputSegment_eq, counted.2, if_pos refuses.isAck, handleAck]
      dsimp only
      rw [if_neg fresh, if_pos beyond, if_neg (by simp)]

theorem RefusesAck.dataPlane (refuses : s.RefusesAck p) :
    (s.inputChecked p).dataPlane = ((s.synced p).stored p.counted).dataPlane := by
  rw [refuses.eq]
  rfl

/-- A refused segment changes nothing that it carries: its window is the one in use if it carries a
SYN, and its payload or FIN, if it gets as far as reassembly, cannot be stored. -/
structure Harmless (s : Endpoint) (p : UdtPacket) : Prop where
  window : hasSyn p.hdr.flags = true → p.hdr.win.setWidth 32 = s.cb.sndWnd
  payload : (hasSyn p.hdr.flags = true → s.cb.state = .established) → needsReass p.hdr →
    s.Unstorable p.counted

theorem unstorable_congr (buf : t.sk.rcvBuf = s.sk.rcvBuf) (next : t.cb.rcvNxt = s.cb.rcvNxt) :
    t.Unstorable p ↔ s.Unstorable p := by
  unfold Unstorable
  rw [buf, next]

theorem handleSyn_refuses_iff (synchronised : s.Synchronised) :
    (s.handleSyn p).1 = true ↔ s.cb.state ≠ .established := by
  unfold Synchronised at synchronised
  unfold handleSyn
  dsimp only
  cases state : s.cb.state <;> simp_all [TcpState.value]

theorem RefusesSyn.dataPlane_iff (synchronised : s.Synchronised) (refuses : s.RefusesSyn p) :
    (s.inputChecked p).dataPlane = s.dataPlane ↔ p.hdr.win.setWidth 32 = s.cb.sndWnd := by
  rw [refuses.eq, synced_sndWnd_iff synchronised, forall_prop_of_true refuses.isSyn]

theorem stored_synced_iff (synchronised : s.Synchronised) (p : UdtPacket) :
    ((s.synced p).stored p.counted).dataPlane = (s.synced p).dataPlane ↔
      (needsReass p.hdr → s.Unstorable p.counted) := by
  have needs : needsReass p.counted.hdr ↔ needsReass p.hdr := by
    unfold UdtPacket.counted
    split <;> rfl
  obtain ⟨buf, next⟩ := synced_receiver synchronised p
  rw [stored_dataPlane_iff, unstorable_congr buf next, needs]

theorem stored_sndWnd (s : Endpoint) (p : UdtPacket) : (s.stored p).cb.sndWnd = s.cb.sndWnd := by
  obtain ⟨_, _, _, _, _, _, result⟩ := s.stored_eq p
  rw [result]

/-- The packet is compared with a state in which only the send window may have changed. -/
theorem RefusesAck.dataPlane_iff (synchronised : s.Synchronised) (refuses : s.RefusesAck p) :
    (s.inputChecked p).dataPlane = s.dataPlane ↔
      (hasSyn p.hdr.flags = true → p.hdr.win.setWidth 32 = s.cb.sndWnd) ∧
        (needsReass p.hdr → s.Unstorable p.counted) := by
  rw [refuses.dataPlane, ← stored_synced_iff synchronised, ← synced_sndWnd_iff synchronised]
  constructor
  · intro same
    have first : (s.synced p).dataPlane = s.dataPlane := by
      rw [synced_sndWnd_iff synchronised]
      intro isSyn
      have synced := synced_dataPlane synchronised p
      rw [if_pos isSyn] at synced
      calc p.hdr.win.setWidth 32 = (s.synced p).cb.sndWnd := (congrArg DataPlane.sndWnd synced).symm
        _ = ((s.synced p).stored p.counted).cb.sndWnd := (stored_sndWnd _ _).symm
        _ = s.cb.sndWnd := congrArg DataPlane.sndWnd same
    exact ⟨first, same.trans first.symm⟩
  · rintro ⟨first, second⟩
    exact second.trans first

/-- A refused segment has no effect on the data plane exactly if it is harmless. -/
theorem refused_dataPlane_iff (synchronised : s.Synchronised) (refuses : s.Refuses p) :
    (s.inputChecked p).dataPlane = s.dataPlane ↔ s.Harmless p := by
  have state := s.entered_state p
  have entered : (s.entered p).Synchronised := by
    rwa [Synchronised, state]
  rcases refuses with refuses | refuses
  · rw [refuses.dataPlane_iff synchronised]
    have later := (handleSyn_refuses_iff entered).mp refuses.refused
    rw [state] at later
    constructor
    · exact fun win => ⟨fun _ => win, fun taken => absurd (taken refuses.isSyn) later⟩
    · exact fun harmless => harmless.window refuses.isSyn
  · rw [refuses.dataPlane_iff synchronised]
    have taken : hasSyn p.hdr.flags = true → s.cb.state = .established := by
      intro isSyn
      by_contra other
      have refused := (handleSyn_refuses_iff (p := p) entered).mpr (state ▸ other)
      rw [refuses.taken isSyn] at refused
      contradiction
    constructor
    · exact fun both => ⟨both.1, fun _ => both.2⟩
    · exact fun harmless => ⟨harmless.window, harmless.payload taken⟩

theorem RefusesAck.receiver (synchronised : s.Synchronised) (refuses : s.RefusesAck p)
    (payload : needsReass p.hdr → s.Unstorable p.counted) :
    (s.inputChecked p).sk.rcvBuf = s.sk.rcvBuf ∧ (s.inputChecked p).cb.rcvNxt = s.cb.rcvNxt := by
  have same := refuses.dataPlane.trans ((stored_synced_iff synchronised p).mpr payload)
  obtain ⟨buf, next⟩ := synced_receiver synchronised p
  exact ⟨(congrArg DataPlane.rcvBuf same).trans buf, (congrArg DataPlane.rcvNxt same).trans next⟩

theorem Refuses.window (synchronised : s.Synchronised) (refuses : s.Refuses p)
    (win : hasSyn p.hdr.flags = true → p.hdr.win.setWidth 32 = s.cb.sndWnd) :
    (s.inputChecked p).cb.sndWnd = s.cb.sndWnd := by
  have synced : (s.synced p).cb.sndWnd = s.cb.sndWnd :=
    congrArg DataPlane.sndWnd ((synced_sndWnd_iff synchronised p).mpr win)
  rcases refuses with refuses | refuses
  · rwa [refuses.eq]
  · exact ((congrArg DataPlane.sndWnd refuses.dataPlane).trans (stored_sndWnd _ _)).trans synced

section Notices

/-- What `commit_notifies` still has to pass on. -/
structure Notices where
  read : Bool
  write : Bool
  drop : Bool
  reset : Bool

def notices (s : Endpoint) : Notices where
  read := s.cb.flags.notifyRead
  write := s.cb.flags.notifyWrite
  drop := s.cb.flags.notifyDrop
  reset := s.cb.flags.needReset

/-- Nothing is left to pass on. -/
def Told (s : Endpoint) : Prop := s.notices = ⟨false, false, false, false⟩

theorem inner_notices (path : BlockPath Tag.Inner s t) : t.notices = s.notices :=
  congrArg (fun v : Steady => (⟨v.notifyRead, v.notifyWrite, v.notifyDrop, v.needReset⟩ : Notices))
    (path_inner_steady path)

theorem block_told {a : Tag} (block : Block s a t) (whole : a ≠ .disconnect)
    (quiet : a.Quiet ∨ a = .fast) (told : s.Told) : t.Told := by
  cases block with
  | output block => exact (inner_notices ((Block.output block).path rfl)).trans told
  | read => exact (inner_notices (Block.read.path rfl)).trans told
  | delayed => exact (inner_notices (Block.delayed.path rfl)).trans told
  | disconnect => exact absurd rfl whole
  | notifySends =>
      rw [notifySends_eq]
      exact told
  | notifyHandlers =>
      rw [postHandlers_eq]
      exact told
  | reset => exact congrArg (fun v : Notices => { v with reset := false }) told
  | readDone => exact congrArg (fun v : Notices => { v with read := false }) told
  | writeDone => exact congrArg (fun v : Notices => { v with write := false }) told
  | dropDone => exact congrArg (fun v : Notices => { v with drop := false }) told
  | receiving =>
      obtain ⟨_, _, _, result⟩ := s.doReceive_eq
      rw [result]
      exact told
  | rexmtBegun =>
      obtain ⟨_, _, _, _, _, _, _, _, _, _, result⟩ := s.rexmtBegun_eq
      rw [result]
      exact told
  | persistBegun =>
      obtain ⟨_, _, _, _, _, result, _⟩ := s.persistBegun_eq
      rw [result]
      exact told
  | @connect h =>
      obtain ⟨_, _, _, result⟩ := s.connecting_eq h
      rw [result]
      exact told
  | @connectBusy h =>
      obtain ⟨_, _, _, result⟩ := ({ s with sk.connectHandler := some h } : Endpoint).doReceive_eq
      rw [result]
      exact told
  | @accept h | @acceptBusy h =>
      obtain ⟨_, _, _, result⟩ := ({ s with sk.acceptHandler := some h } : Endpoint).doReceive_eq
      rw [result]
      exact told
  | @shutdown h =>
      rw [closing_eq]
      exact told
  | mtu =>
      unfold UdtCb.setMtu
      split <;> exact told
  | notified | dropped | failed | consumed | released | delackDue | rexmtTick | rexmtExceeded
  | persistTick | forced | keep | keepProbe | twoMslTick | ticked | waited | sendRefused
  | sendQueued | receiveRefused | receiveQueued | keepalive | sndLimit | rcvLimit | cancel
  | close => exact told
  | _ => exact (quiet.resolve_right (by simp)).elim

theorem path_told {C : Endpoint → Tag → Prop} (path : BlockPath C s t)
    (calm : ∀ s a, C s a → a.Quiet ∨ a = .fast) (told : s.Told) : t.Told := by
  refine path.invariant (I := Told) told fun x a y told met block => ?_
  refine Block.keeps block told fun {_ b _} whole tag told block => block_told block whole ?_ told
  rcases tag with rfl | rfl | rfl | rfl
  · exact calm x _ met
  all_goals exact .inl trivial

theorem late_told (path : BlockPath Tag.Late s t) : s.Told → t.Told :=
  path_told path fun _ _ late => by rcases late with rfl | rfl | rfl <;> exact .inl trivial

theorem commitReset_notices (s : Endpoint) :
    s.commitReset.notices = { s.notices with reset := false } := by
  unfold commitReset
  split
  · rfl
  · next down => simp [notices, down]

theorem commitRead_notices (s : Endpoint) :
    s.commitRead.notices = { s.notices with read := false } := by
  unfold commitRead
  split
  · exact congrArg (fun v : Notices => { v with read := false })
      (inner_notices s.notifyReadable_blocks)
  · next down => simp [notices, down]

theorem commitWrite_notices (s : Endpoint) :
    s.commitWrite.notices = { s.notices with write := false } := by
  unfold commitWrite
  split
  · exact congrArg (fun v : Notices => { v with write := false })
      (inner_notices s.onWritable_blocks)
  · next down => simp [notices, down]

theorem onDisconnected_notices (s : Endpoint) : s.onDisconnected.notices = s.notices := by
  unfold onDisconnected
  split
  · dsimp only
    rw [notifySends_eq]
    have read := inner_notices (recvData_blocks
      { s with posted := s.posted ++ s.sk.sendOps.map (.sent · .disconnected 0) })
    generalize recvData _ = x at read ⊢
    rw [postHandlers_eq]
    exact read
  · rfl

theorem commitDrop_notices (s : Endpoint) :
    s.commitDrop.notices = { s.notices with drop := false } := by
  unfold commitDrop drop
  dsimp only
  split
  · refine congrArg (fun v : Notices => { v with drop := false })
      ((onDisconnected_notices _).trans ?_)
    split <;> rfl
  · next down => simp [notices, down]

theorem commitNotifies_told (s : Endpoint) : s.commitNotifies.Told := by
  rw [Told, commitNotifies, commitDrop_notices, commitWrite_notices, commitRead_notices,
    commitReset_notices]

/-- Between events nothing is left to pass on. -/
theorem step_told (s : Endpoint) (e : Event) (told : s.Told) : (s.step e).Told := by
  cases e with
  | packet hdr mem n =>
      rcases s.handleReceive_cases hdr mem n with (same | same) | ⟨_, _, _, _, result⟩
      · rw [step, same]
        exact told
      · rw [step, same]
        exact late_told (rest_path .receiving) told
      · rw [step, result]
        exact late_told (received_blocks _) (commitNotifies_told _)
  | _ =>
      refine path_told (s.step_blocks _) (fun x a tags => ?_) told
      exact (tags_quiet tags (by simp)).imp_right And.left

theorem run_told (es : List Event) (told : s.Told) : (s.run es).Told := by
  induction es generalizing s with
  | nil => exact told
  | cons e es ih => exact ih (s.step_told e told)

theorem init_run_told (fack sndSeq rcvSeq : Word) (env : Env) (es : List Event) :
    ((init fack sndSeq rcvSeq env).run es).Told :=
  run_told es rfl

end Notices

section Commit

/-- What `output` sends from. -/
structure Sending where
  sndBuf : UdtBuf
  sndNxt : Word
  sndMax : Word

def sending (s : Endpoint) : Sending where
  sndBuf := s.sk.sndBuf
  sndNxt := s.cb.sndNxt
  sndMax := s.cb.sndMax

/-- An error is about to end the connection, and nothing has been acknowledged. -/
structure Failing (s : Endpoint) : Prop where
  alive : s.sk.nextLayer = true
  failed : s.cb.lastError ≠ .succeed
  unacked : s.cb.flags.notifyWrite = false
  due : s.cb.flags.notifyDrop = true

/-- The data plane once the waiting receives have been served. -/
def leavings (s : Endpoint) : DataPlane :=
  { s.dataPlane with rcvBuf := s.sk.rcvBuf.handedTo s.sk.recvOps }

theorem recvDataLoop_handed (failed : s.cb.lastError ≠ .succeed) (ops : List RecvOperation) :
    ∃ posted, (s.recvDataLoop ops).2 =
      { s with sk.rcvBuf := s.sk.rcvBuf.handedTo ops, sk.recvOps := [], posted } := by
  induction ops generalizing s with
  | nil => exact ⟨s.posted, rfl⟩
  | cons op ops ih =>
      obtain ⟨posted, result⟩ := ih (s := { s with
        sk.rcvBuf.toUdtBuf := (s.sk.rcvBuf.toUdtBuf.copy op.buf.size.toNat true).2
        posted := s.posted ++ [.received op s.cb.lastError
          (s.sk.rcvBuf.toUdtBuf.copy op.buf.size.toNat true).1] }) failed
      refine ⟨posted, ?_⟩
      rw [recvDataLoop, if_neg fun short => failed short.1, dispatchRecvOperation]
      dsimp only
      rw [if_pos (.inr failed)]
      exact result

theorem recvData_handed (failed : s.cb.lastError ≠ .succeed) :
    ∃ posted, s.recvData =
      { s with
        sk.rcvBuf := s.sk.rcvBuf.handedTo s.sk.recvOps, sk.recvOps := [], posted } := by
  obtain ⟨posted, result⟩ := recvDataLoop_handed failed s.sk.recvOps
  refine ⟨posted, ?_⟩
  rw [recvData, if_neg fun idle => failed idle.2]
  generalize s.recvDataLoop s.sk.recvOps = served at result ⊢
  obtain ⟨output, x⟩ := served
  obtain rfl : x = _ := result
  exact if_neg fun goes => failed goes.1

theorem commitRead_failing (failing : s.Failing) :
    s.commitRead.Failing ∧ s.commitRead.leavings = s.leavings := by
  obtain ⟨posted, read⟩ := recvData_handed failing.failed
  unfold commitRead notifyReadable onReadable
  rw [if_pos failing.alive, read]
  split
  · split
    · exact ⟨⟨failing.alive, failing.failed, failing.unacked, failing.due⟩, rfl⟩
    · exact ⟨⟨failing.alive, failing.failed, failing.unacked, failing.due⟩, rfl⟩
  · exact ⟨failing, rfl⟩

theorem commitReset_failing (failing : s.Failing) :
    s.commitReset.Failing ∧ s.commitReset.leavings = s.leavings := by
  unfold commitReset
  split
  · exact ⟨⟨failing.alive, failing.failed, failing.unacked, failing.due⟩, rfl⟩
  · exact ⟨failing, rfl⟩

/-- `on_disconnected` serves what still waits. -/
theorem onDisconnected_failing (failing : s.Failing) : s.onDisconnected.dataPlane = s.leavings := by
  rw [onDisconnected, if_pos failing.alive, notifySends_eq]
  obtain ⟨posted, read⟩ := recvData_handed
    (s := { s with posted := s.posted ++ s.sk.sendOps.map (.sent · .disconnected 0) })
    failing.failed
  dsimp only
  rw [read, postHandlers_eq]
  rfl

theorem commitDrop_failing (failing : s.Failing) : s.commitDrop.dataPlane = s.leavings := by
  rw [commitDrop, if_pos failing.due, drop]
  dsimp only
  rw [if_pos failing.failed]
  exact onDisconnected_failing failing

theorem commitNotifies_failing (failing : s.commitOutput.Failing) :
    s.commitNotifies.dataPlane = s.commitOutput.leavings := by
  obtain ⟨reset, first⟩ := commitReset_failing failing
  obtain ⟨read, second⟩ := commitRead_failing reset
  have write : s.commitOutput.commitReset.commitRead.commitWrite =
      s.commitOutput.commitReset.commitRead := by
    rw [commitWrite, if_neg (by simp [read.unacked])]
  rw [commitNotifies, write, commitDrop_failing read, second, first]

theorem commitNotifies_told_eq (told : s.Told) : s.commitNotifies = s.commitOutput := by
  have told : s.commitOutput.Told := (inner_notices s.commitOutput_blocks).trans told
  have read : s.commitOutput.cb.flags.notifyRead = false := congrArg Notices.read told
  have write : s.commitOutput.cb.flags.notifyWrite = false := congrArg Notices.write told
  have drop : s.commitOutput.cb.flags.notifyDrop = false := congrArg Notices.drop told
  have reset : s.commitOutput.cb.flags.needReset = false := congrArg Notices.reset told
  have first : s.commitOutput.commitReset = s.commitOutput := by
    rw [commitReset, if_neg (by simp [reset])]
  have second : s.commitOutput.commitRead = s.commitOutput := by
    rw [commitRead, if_neg (by simp [read])]
  have third : s.commitOutput.commitWrite = s.commitOutput := by
    rw [commitWrite, if_neg (by simp [write])]
  rw [commitNotifies, first, second, third, commitDrop, if_neg (by simp [drop])]

theorem commitOutput_outside (s : Endpoint) : s.commitOutput.outside = s.outside := by
  unfold commitOutput
  split
  · exact s.output_outside
  · rfl

theorem commitOutput_receiver (s : Endpoint) :
    s.commitOutput.sk.rcvBuf = s.sk.rcvBuf ∧ s.commitOutput.sk.recvOps = s.sk.recvOps := by
  have buf : s.commitOutput.outside.sk.rcvBuf = s.outside.sk.rcvBuf := by
    rw [commitOutput_outside]
  have ops : s.commitOutput.outside.sk.recvOps = s.outside.sk.recvOps := by
    rw [commitOutput_outside]
  exact ⟨buf, ops⟩

end Commit

section Refused

/-- What no refusal touches before `the_end`. -/
structure Untouched where
  sending : Sending
  sndUna : Word
  recvOps : List RecvOperation
  nextLayer : Bool
  notifyWrite : Bool

def untouched (s : Endpoint) : Untouched where
  sending := s.sending
  sndUna := s.cb.sndUna
  recvOps := s.sk.recvOps
  nextLayer := s.sk.nextLayer
  notifyWrite := s.cb.flags.notifyWrite

theorem synced_untouched (synchronised : s.Synchronised) (p : UdtPacket) :
    (s.synced p).untouched = s.untouched := by
  obtain ⟨_, _, _, _, _, _, _, entered⟩ := s.entered_eq p
  have first : (s.entered p).untouched = s.untouched := by
    rw [entered]
    rfl
  unfold synced
  split
  · obtain ⟨_, _, _, result⟩ := handleSyn_late synchronised p
    rw [result]
    exact first
  · exact first

theorem Refuses.untouched (synchronised : s.Synchronised) (refuses : s.Refuses p) :
    (s.inputChecked p).untouched = s.untouched := by
  have synced := synced_untouched synchronised p
  rcases refuses with refuses | refuses
  · rw [refuses.eq]
    exact synced
  · obtain ⟨_, _, _, _, _, _, stored⟩ := (s.synced p).stored_eq p.counted
    rw [refuses.eq, stored]
    exact synced

/-- What `input` leaves of a segment that it refused. Where `output` is due, it has sent. -/
structure Answered (s : Endpoint) (p : UdtPacket) (t : Endpoint) : Prop where
  una : t.cb.sndUna = s.cb.sndUna
  waited : (s.inputChecked p).sending = s.sending
  sent : t.sending =
    if (s.inputChecked p).cb.flags.acknow || (s.inputChecked p).cb.flags.needOutput then
      (s.inputChecked p).output.sending
    else s.sending
  window : (hasSyn p.hdr.flags = true → p.hdr.win.setWidth 32 = s.cb.sndWnd) →
    t.cb.sndWnd = s.cb.sndWnd
  syn : s.RefusesSyn p → t.cb.rcvNxt = s.cb.rcvNxt ∧ t.sk.rcvBuf = s.sk.rcvBuf
  ack : s.RefusesAck p → (needsReass p.hdr → s.Unstorable p.counted) →
    t.cb.rcvNxt = s.cb.rcvNxt ∧ t.sk.rcvBuf.reasmPkts = s.sk.rcvBuf.reasmPkts ∧
      t.sk.rcvBuf = s.sk.rcvBuf.handedTo s.sk.recvOps

theorem RefusesSyn.not_refusesAck (refuses : s.RefusesSyn p) : ¬ s.RefusesAck p := by
  intro beyond
  have goes := beyond.taken refuses.isSyn
  rw [refuses.refused] at goes
  contradiction

/-- A refused SYN asks for no more than an acknowledgement. -/
theorem RefusesSyn.told (synchronised : s.Synchronised) (refuses : s.RefusesSyn p)
    (told : s.Told) : (s.inputChecked p).Told := by
  obtain ⟨_, _, _, _, _, _, _, entered⟩ := s.entered_eq p
  obtain ⟨_, _, _, result⟩ := handleSyn_late synchronised p
  rw [refuses.eq, synced, if_pos refuses.isSyn, result, entered]
  exact told

theorem RefusesAck.failing (synchronised : s.Synchronised) (refuses : s.RefusesAck p)
    (told : s.Told) (alive : s.sk.nextLayer = true) : (s.inputChecked p).commitOutput.Failing := by
  have untouched := Refuses.untouched synchronised (.inr refuses)
  have steady := path_inner_steady (s.inputChecked p).commitOutput_blocks
  have error : (s.inputChecked p).cb.lastError = .malformedPacket := by rw [refuses.eq]
  have due : (s.inputChecked p).cb.flags.notifyDrop = true := by rw [refuses.eq]
  refine ⟨?_, ?_, ?_, (congrArg Steady.notifyDrop steady).trans due⟩
  · exact ((congrArg Steady.nextLayer steady).trans (congrArg Untouched.nextLayer untouched)).trans
      alive
  · intro fine
    have named := (congrArg Steady.lastError steady).trans error
    exact absurd (named.symm.trans fine) (by simp)
  · exact ((congrArg Steady.notifyWrite steady).trans
      (congrArg Untouched.notifyWrite untouched)).trans (congrArg Notices.write told)

/-- `commit_notifies` leaves what its `output` leaves, less what the waiting receives take. -/
theorem refused_commit (synchronised : s.Synchronised) (told : s.Told)
    (alive : s.sk.nextLayer = true) (refuses : s.Refuses p) :
    ∃ rb, (s.inputChecked p).commitNotifies.dataPlane =
        { (s.inputChecked p).commitOutput.dataPlane with rcvBuf := rb } ∧
      (s.RefusesSyn p → rb = (s.inputChecked p).sk.rcvBuf) ∧
      (s.RefusesAck p → rb = (s.inputChecked p).sk.rcvBuf.handedTo s.sk.recvOps) := by
  obtain ⟨buf, ops⟩ := (s.inputChecked p).commitOutput_receiver
  have untouched := refuses.untouched synchronised
  rcases refuses with refuses | refuses
  · refine ⟨_, ?_, fun _ => rfl, fun other => absurd other refuses.not_refusesAck⟩
    rw [commitNotifies_told_eq (refuses.told synchronised told), ← buf]
    rfl
  · refine ⟨_, ?_, fun other => absurd refuses other.not_refusesAck, fun _ => rfl⟩
    have waiting : (s.inputChecked p).sk.recvOps = s.sk.recvOps :=
      congrArg Untouched.recvOps untouched
    have failing := refuses.failing synchronised told alive
    rw [commitNotifies_failing failing, leavings, buf, ops, waiting]

theorem pktConsumed_dataPlane (s : Endpoint) : s.pktConsumed.2.dataPlane = s.dataPlane := by
  unfold pktConsumed
  split <;> rfl

/-- A refused segment costs the data plane what `output` sends for it and, when it ends the
connection, what the waiting receives are handed. -/
theorem refused_segment_answered {fack sndSeq rcvSeq : Word} {env : Env} {es : List Event}
    {hdr : UdtHdr} {mem : List UChar} {buffer n : Nat}
    (reached : (init fack sndSeq rcvSeq env).run es = s) (synchronised : s.Synchronised)
    (alive : s.sk.nextLayer = true) (good : intact hdr n)
    (refuses : s.Refuses (hostPacket hdr mem buffer)) :
    s.Answered (hostPacket hdr mem buffer) (s.input ⟨hdr, mem, buffer⟩ n).2 := by
  have told : s.Told := reached ▸ init_run_told fack sndSeq rcvSeq env es
  have untouched := refuses.untouched synchronised
  obtain ⟨rb, plane, syn, ack⟩ := refused_commit synchronised told alive refuses
  have plane := (pktConsumed_dataPlane _).trans plane
  rw [input_intact s good]
  generalize hostPacket hdr mem buffer = p at *
  generalize (s.inputChecked p).commitNotifies.pktConsumed.2 = t at plane ⊢
  have steady := path_inner_steady (s.inputChecked p).commitOutput_blocks
  have waited : (s.inputChecked p).sending = s.sending := congrArg Untouched.sending untouched
  have next : t.cb.rcvNxt = (s.inputChecked p).cb.rcvNxt :=
    (congrArg DataPlane.rcvNxt plane).trans (congrArg Steady.rcvNxt steady)
  have buf : t.sk.rcvBuf = rb := congrArg DataPlane.rcvBuf plane
  have sent : t.sending = (s.inputChecked p).commitOutput.sending :=
    congrArg (fun d : DataPlane => (⟨d.sndBuf, d.sndNxt, d.sndMax⟩ : Sending)) plane
  constructor
  case una =>
    calc t.cb.sndUna = (s.inputChecked p).commitOutput.cb.sndUna := congrArg DataPlane.sndUna plane
      _ = (s.inputChecked p).cb.sndUna := congrArg Steady.sndUna steady
      _ = s.cb.sndUna := congrArg Untouched.sndUna untouched
  case waited => exact waited
  case sent =>
    rw [sent, ← waited, commitOutput]
    split <;> rfl
  case window =>
    intro win
    calc t.cb.sndWnd = (s.inputChecked p).commitOutput.cb.sndWnd := congrArg DataPlane.sndWnd plane
      _ = (s.inputChecked p).cb.sndWnd := congrArg Steady.sndWnd steady
      _ = s.cb.sndWnd := refuses.window synchronised win
  case syn =>
    intro refused
    obtain ⟨sameBuf, sameNext⟩ := synced_receiver synchronised p
    rw [← refused.eq] at sameBuf sameNext
    exact ⟨next.trans sameNext, (buf.trans (syn refused)).trans sameBuf⟩
  case ack =>
    intro refused payload
    obtain ⟨sameBuf, sameNext⟩ := refused.receiver synchronised payload
    have handed : t.sk.rcvBuf = s.sk.rcvBuf.handedTo s.sk.recvOps :=
      sameBuf ▸ buf.trans (ack refused)
    refine ⟨next.trans sameNext, ?_, handed⟩
    rw [handed, UdtRcvBuf.handedTo_reasmPkts]

end Refused

/-- The segment is refused, and the data plane is not what it was. -/
structure Disturbs (s : Endpoint) (hdr : UdtHdr) (mem : List UChar) (n : Nat) : Prop where
  synchronised : s.Synchronised
  alive : s.sk.nextLayer = true
  good : intact hdr n
  refuses : s.Refuses (hostPacket hdr mem 1)
  moved : (s.input ⟨hdr, mem, 1⟩ n).2.dataPlane ≠ s.dataPlane

/-- A passive open; `win` is the peer's window. -/
def passiveOpen (win : Half) : List Event :=
  [.accept 0, .datagram ⟨0, UdtHdr.TH_SYN, win, 0, 20, 100, 0, 0⟩ [],
    .datagram ⟨0, UdtHdr.TH_ACK, win, 0, 20, 101, 1, 0⟩ []]

/-- One byte has arrived, and a receive waits for ten. -/
def byteWaited : List Event :=
  passiveOpen 1000 ++
    [.datagram ⟨0, UdtHdr.TH_ACK, 1000, 1, 20, 101, 1, 0⟩ [5], .receive ⟨⟨false, 10⟩, 0⟩]

/-- Twelve bytes and a FIN wait for the window. When it opens one `output` sends ten packets. -/
def releasedSends : List Event :=
  passiveOpen 0 ++ List.replicate 12 (.sendByte 3) ++
    [.shutdown 0, .datagram ⟨0, UdtHdr.TH_ACK, 1000, 0, 20, 101, 1, 0⟩ []]

/-- A segment that acknowledges what was never sent. -/
def beyondAck (seq : Word) (len : Half) : UdtHdr := ⟨0, UdtHdr.TH_ACK, 1000, len, 20, seq, 9, 0⟩

/-- A SYN that comes after the handshake. -/
def lateSyn (win : Half) : UdtHdr := ⟨0, UdtHdr.TH_SYN, win, 0, 20, 100, 0, 0⟩

theorem refused_segment_answered_waited :
    ((init 0 0 0 Env.zero).run byteWaited).Answered (hostPacket (beyondAck 102 0).hton [] 1)
      (((init 0 0 0 Env.zero).run byteWaited).input ⟨(beyondAck 102 0).hton, [], 1⟩ 20).2 := by
  refine refused_segment_answered rfl (by decide +kernel) (by decide +kernel) (by decide +kernel)
    (.inr ?_)
  exact ⟨by decide +kernel, by decide +kernel, by decide +kernel, by decide +kernel,
    by decide +kernel, by decide +kernel⟩

/-- The acknowledgement of a refused SYN takes more data along, and the end of a connection hands
the byte to the receive that waits. The payload of a malformed segment is stored before it is
refused, and a SYN that is refused has set the send window. -/
theorem refused_segments_disturb :
    ((init 0 0 0 Env.zero).run releasedSends).Disturbs (lateSyn 1000).hton [] 20 ∧
      ((init 0 0 0 Env.zero).run byteWaited).Disturbs (beyondAck 102 0).hton [] 20 ∧
      ((init 0 0 0 Env.zero).run (passiveOpen 1000)).Disturbs (beyondAck 101 1).hton [5] 21 ∧
      ((init 0 0 0 Env.zero).run (passiveOpen 1000 ++ [.shutdown 0])).Disturbs
        (lateSyn 7).hton [] 20 := by
  refine ⟨⟨by decide +kernel, by decide +kernel, by decide +kernel,
    .inl ⟨by decide +kernel, by decide +kernel, by decide +kernel⟩, fun same => ?_⟩,
    ⟨by decide +kernel, by decide +kernel, by decide +kernel,
    .inr ⟨by decide +kernel, by decide +kernel, by decide +kernel, by decide +kernel,
    by decide +kernel, by decide +kernel⟩, fun same => ?_⟩,
    ⟨by decide +kernel, by decide +kernel, by decide +kernel,
    .inr ⟨by decide +kernel, by decide +kernel, by decide +kernel, by decide +kernel,
    by decide +kernel, by decide +kernel⟩, fun same => ?_⟩,
    ⟨by decide +kernel, by decide +kernel, by decide +kernel,
    .inl ⟨by decide +kernel, by decide +kernel, by decide +kernel⟩, fun same => ?_⟩⟩
  · have sent := congrArg DataPlane.sndNxt same
    exact absurd sent (by decide +kernel)
  · have taken := congrArg (fun d : DataPlane => d.rcvBuf.pkts) same
    exact absurd taken (by decide +kernel)
  · have stored := congrArg DataPlane.rcvNxt same
    exact absurd stored (by decide +kernel)
  · have window := congrArg DataPlane.sndWnd same
    exact absurd window (by decide +kernel)

end Endpoint

end UdtBoost
