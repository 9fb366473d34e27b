import UdtBoost.Block

/-! The blocks of every function, and so of every event. At most one block of an event moves
`m_snd_una`, and none before it sends or appends. -/
namespace UdtBoost

abbrev BlockPath := Trace.Path Block

namespace Tag

/-- Blocks of `output` and of the user's reads. -/
def Inner (_ : Endpoint) (a : Tag) : Prop := a = .inner

/-- Blocks of `on_disconnected`. -/
def Ending (_ : Endpoint) (a : Tag) : Prop := a = .inner ∨ a = .post ∨ a = .cancel

/-- Blocks after a packet's processing, and of the slow timer. -/
def Late (_ : Endpoint) (a : Tag) : Prop := a = .inner ∨ a = .rest ∨ a = .disconnect

end Tag

/-- The packet with its SYN counted, as `handle_syn` leaves it. -/
def UdtPacket.counted (p : UdtPacket) : UdtPacket :=
  if hasSyn p.hdr.flags then { p with hdr.seq := p.hdr.seq + 1 } else p

/-- The packet without its SYN is the same to everything else. -/
theorem UdtPacket.counted_same (p : UdtPacket) : p.counted.hdr.ack = p.hdr.ack ∧
    p.counted.hdr.flags = p.hdr.flags ∧ p.counted.options = p.options ∧
      p.counted.buffer = p.buffer := by
  unfold UdtPacket.counted
  split <;> exact ⟨rfl, rfl, rfl, rfl⟩

namespace Tag

/-- Blocks of a packet's processing that neither move `m_snd_una` nor send. -/
def Early (p : UdtPacket) (_ : Endpoint) : Tag → Prop
  | .input => True
  | .syn q => q = p
  | .store q | .ackAll q | .sack q _ => q = p.counted
  | _ => False

/-- Blocks of a packet's processing that do not move `m_snd_una`. -/
def Mild (p : UdtPacket) (s : Endpoint) : Tag → Prop
  | .inner | .fin => True
  | .window q | .fastRexmt q => q = p.counted
  | a => Early p s a

theorem Early.mild {p : UdtPacket} {s : Endpoint} {a : Tag} (early : Early p s a) : Mild p s a := by
  cases a <;> first | exact early | trivial

end Tag

theorem Block.path {s t : Endpoint} {a : Tag} {C : Endpoint → Tag → Prop} (block : Block s a t)
    (met : C s a) : BlockPath C s t := .single met block

namespace Endpoint

open Tag

theorem OutputPath.blocks {s t : Endpoint} (path : OutputPath s t) : BlockPath Inner s t := by
  induction path with
  | refl => exact .refl _
  | tail _ _ _ block ih => exact ih.trans ((Block.output block).path rfl)

theorem output_inner (s : Endpoint) : BlockPath Inner s s.output := s.output_blocks.blocks

theorem recvData_blocks (s : Endpoint) : BlockPath Inner s s.recvData := by
  unfold recvData
  split
  · exact .refl _
  · have read : BlockPath Inner s (s.recvDataLoop s.sk.recvOps).2 := Block.read.path rfl
    generalize s.recvDataLoop s.sk.recvOps = result at read ⊢
    obtain ⟨output, s'⟩ := result
    dsimp only at read ⊢
    split
    · exact read.trans s'.output_inner
    · exact read

theorem handleDelayRecvOperation_blocks (s : Endpoint) (aborted : Bool) :
    BlockPath Late s (s.handleDelayRecvOperation aborted) := by
  unfold handleDelayRecvOperation
  split
  · exact .refl _
  · dsimp only
    split
    · exact Block.waited.path (.inr (.inl rfl))
    · exact Block.delayed.path (.inl rfl)

theorem onWritable_blocks (s : Endpoint) : BlockPath Inner s s.onWritable := by
  unfold onWritable
  split
  · have consumed : BlockPath Inner s s.consumePendingData.2 :=
      (Block.output .consume).path rfl
    generalize s.consumePendingData = result at consumed ⊢
    obtain ⟨n, s'⟩ := result
    dsimp only at consumed ⊢
    split
    · exact consumed.trans s'.output_inner
    · exact consumed
  · exact .refl _

theorem onDisconnected_blocks (s : Endpoint) : BlockPath Ending s s.onDisconnected := by
  unfold onDisconnected
  split
  · have sends : BlockPath Ending s
        (s.sk.sendOps.foldl (fun s op => s.post (.sent op .disconnected 0)) s) :=
      Block.notifySends.path (.inr (.inl rfl))
    dsimp only
    generalize s.sk.sendOps.foldl (fun s op => s.post (.sent op .disconnected 0)) s = s₁ at sends ⊢
    have read := s₁.recvData_blocks.mono (D := Ending) fun _ _ inner => .inl inner
    have handlers : BlockPath Ending s₁.recvData (s₁.recvData.postHandlers .disconnected) :=
      Block.notifyHandlers.path (.inr (.inl rfl))
    have cancelled : BlockPath Ending (s₁.recvData.postHandlers .disconnected)
        (s₁.recvData.postHandlers .disconnected).cancel := Block.cancel.path (.inr (.inr rfl))
    generalize (s₁.recvData.postHandlers .disconnected).cancel = s₂ at cancelled ⊢
    have notified : BlockPath Ending s₂
        { s₂ with disconnects := s₂.disconnects ++ [s₂.posted] } :=
      Block.notified.path (.inr (.inl rfl))
    exact (((sends.trans read).trans handlers).trans cancelled).trans notified
  · exact .refl _

/-- `on_disconnected` is one block, or the blocks it is made of. -/
theorem Block.keeps {I : Endpoint → Prop} {s t : Endpoint} {a : Tag} (block : Block s a t)
    (holds : I s)
    (base : ∀ {s b t}, b ≠ .disconnect → b = a ∨ Ending s b → I s → Block s b t → I t) : I t := by
  by_cases whole : a = .disconnect
  · subst whole
    cases block with
    | disconnect =>
        refine s.onDisconnected_blocks.invariant holds ?_
        rintro s b t inv ending block
        refine base ?_ (.inr ending) inv block
        rcases ending with rfl | rfl | rfl <;> simp
  · exact base whole (.inl rfl) holds block

theorem drop_blocks (s : Endpoint) (e : UdtError)
    (due : e ≠ .succeed ∨ s.cb.flags.notifyDrop = true) : BlockPath Late s (s.drop e) := by
  unfold drop
  dsimp only
  have failed : BlockPath Late s
      (if e ≠ .succeed then { s with cb.lastError := e } else s : Endpoint) ∧
      ((if e ≠ .succeed then { s with cb.lastError := e } else s : Endpoint).cb.flags.notifyDrop =
          true ∨
        (if e ≠ .succeed then { s with cb.lastError := e } else s : Endpoint).cb.lastError ≠
          .succeed) := by
    split
    · next named => exact ⟨(Block.failed named).path (.inr (.inl rfl)), .inr named⟩
    · next unnamed => exact ⟨.refl _, .inl (due.resolve_left unnamed)⟩
  obtain ⟨failed, due⟩ := failed
  generalize (if e ≠ .succeed then { s with cb.lastError := e } else s : Endpoint) = s₁ at failed due ⊢
  have ended : BlockPath Late s₁ s₁.onDisconnected :=
    (Block.disconnect due).path (.inr (.inr rfl))
  have dropped : BlockPath Late s₁.onDisconnected
      { s₁.onDisconnected with cb.state := .closed } := Block.dropped.path (.inr (.inl rfl))
  exact (failed.trans ended).trans dropped

section Input

variable {p : UdtPacket} {C : Endpoint → Tag → Prop}

theorem sackBlock_blocks (s : Endpoint) (q : UdtPacket) (block : PairSeq)
    (front back : List UdtPacket) (queue : s.sk.sndBuf.pkts = front ++ back)
    (free : ∀ s, C s (.sack q block)) :
    ∃ front' back' s', s.sackBlock block.1 block.2 front back = (front', back', s') ∧
      s'.sk.sndBuf.pkts = front' ++ back' ∧ BlockPath C s s' := by
  induction back generalizing s front with
  | nil => exact ⟨front, [], s, rfl, queue, .refl _⟩
  | cons x back ih =>
      rw [sackBlock]
      by_cases below : seqLt x.hdr.seq block.1
      case pos =>
        rw [if_pos below]
        exact ih s (front ++ [x]) (by rw [queue, List.append_assoc, List.singleton_append])
      case neg =>
        rw [if_neg below]
        by_cases covered : seqLe x.endSeq block.2
        case pos =>
          rw [if_pos covered]
          have dropped : BlockPath C s (s.dropSndPkt front x back) :=
            (Block.sacked queue below covered).path (free s)
          obtain ⟨front', back', s', result, queue', path⟩ :=
            ih (s.dropSndPkt front x back) front (s.dropSndPkt_pkts front back x)
          exact ⟨front', back', s', result, queue', dropped.trans path⟩
        case neg => exact ⟨front, x :: back, s, by rw [if_neg covered], queue, .refl _⟩

theorem sackBlocks_blocks (s : Endpoint) (q : UdtPacket) (blocks : List PairSeq)
    (front back : List UdtPacket) (queue : s.sk.sndBuf.pkts = front ++ back)
    (free : ∀ s block, C s (.sack q block)) :
    BlockPath C s (s.sackBlocks front back blocks) := by
  induction blocks generalizing s front back with
  | nil => exact .refl _
  | cons block blocks ih =>
      obtain ⟨front', back', s', result, queue', path⟩ :=
        s.sackBlock_blocks q block front back queue fun s => free s block
      rw [sackBlocks, result]
      exact path.trans (ih s' front' back' queue')

theorem handleOptionSack_blocks (s : Endpoint) (q : UdtPacket) (blocks : List PairSeq)
    (input : ∀ s, C s .input) (free : ∀ s block, C s (.sack q block)) :
    BlockPath C s (s.handleOptionSack blocks) := by
  cases blocks with
  | nil => exact .refl _
  | cons first blocks =>
      have fack : BlockPath C s { s with cb := s.cb.updateSndFack first.2 } :=
        Block.fack.path (input s)
      exact fack.trans (sackBlocks_blocks _ q (first :: blocks).reverse [] s.sk.sndBuf.pkts rfl free)

theorem handleOptionsLoop_blocks (fuel : Nat) (s : Endpoint) (q : UdtPacket) (mem : List UChar)
    (ptr remainLen : Nat) (input : ∀ s, C s .input) (free : ∀ s block, C s (.sack q block)) :
    BlockPath C s (s.handleOptionsLoop fuel mem ptr remainLen).2 := by
  induction fuel generalizing s mem ptr remainLen with
  | zero => exact .refl _
  | succ fuel ih =>
      rw [handleOptionsLoop]
      dsimp only
      split
      · exact .refl _
      split
      · split
        · exact .refl _
        · exact (handleOptionSack_blocks s q _ input free).trans (ih _ _ _ _)
      split
      · split
        · exact .refl _
        · next cwnd _ =>
            have noted : BlockPath C s (s.handleOptionCwnd
                (ntohl (load32 mem (ptr + UdtOption.sizeofOption)))) := Block.cwnd.path (input s)
            exact noted.trans (ih _ _ _ _)
      split
      · exact ih _ _ _ _
      · exact .refl _

theorem handleOptions_blocks (s : Endpoint) (q : UdtPacket) (input : ∀ s, C s .input)
    (free : ∀ s block, C s (.sack q block)) : BlockPath C s (s.handleOptions q) := by
  have path := handleOptionsLoop_blocks (q.hdr.off.toNat - UdtHdr.size) s q q.mem 0
    (q.hdr.off.toNat - UdtHdr.size) input free
  rw [handleOptions]
  dsimp only
  generalize s.handleOptionsLoop (q.hdr.off.toNat - UdtHdr.size) q.mem 0
    (q.hdr.off.toNat - UdtHdr.size) = result at path ⊢
  obtain ⟨mem, s'⟩ := result
  exact path.trans (Block.rewrite.path (input s'))

theorem ackDuplicate_blocks (s : Endpoint) (isAck : hasAck p.counted.hdr.flags = true)
    (same : p.counted.hdr.ack = s.cb.sndUna) :
    BlockPath (Mild p) s (s.ackDuplicate p.counted.hdr).2 := by
  rw [ackDuplicate]
  dsimp only
  by_cases window : p.counted.hdr.win.setWidth 32 ≠ s.cb.sndWnd
  · rw [if_pos window]
    exact (Block.window isAck same window).path rfl
  rw [if_neg window]
  by_cases stopped : s.cb.tRexmt = 0
  · rw [if_pos stopped]
    exact Block.late.path trivial
  rw [if_neg stopped]
  split
  · exact (Block.fastRexmt same stopped).path rfl
  · split
    · exact Block.recovering.path trivial
    · exact Block.duplicate.path trivial

/-- A path of a packet's blocks: no block acknowledges new data, or one does, before anything
is sent or appended. -/
def Phased (p : UdtPacket) (s t : Endpoint) : Prop :=
  BlockPath (Mild p) s t ∨
    ∃ m u, BlockPath (Early p) s m ∧ Block m (.ack p.counted) u ∧ BlockPath (Mild p) u t

theorem Phased.trans {s t u : Endpoint} (first : Phased p s t) (second : BlockPath (Mild p) t u) :
    Phased p s u := by
  rcases first with path | ⟨m, x, early, ack, path⟩
  · exact .inl (path.trans second)
  · exact .inr ⟨m, x, early, ack, path.trans second⟩

theorem Phased.after {s t u : Endpoint} (first : BlockPath (Early p) s t)
    (second : Phased p t u) : Phased p s u := by
  rcases second with path | ⟨m, x, early, ack, path⟩
  · exact .inl ((first.mono fun _ _ => Early.mild).trans path)
  · exact .inr ⟨m, x, first.trans early, ack, path⟩

theorem handleAck_blocks (s : Endpoint) (isAck : hasAck p.counted.hdr.flags = true) :
    Phased p s (s.handleAck p.counted).2 := by
  rw [handleAck]
  dsimp only
  by_cases old : seqLt p.counted.hdr.ack s.cb.sndUna
  · rw [if_pos old]
    exact .inl (.refl _)
  rw [if_neg old]
  by_cases beyond : seqGt p.counted.hdr.ack s.cb.sndMax
  · rw [if_pos beyond]
    exact .inl ((Block.hangup (by simp)).path trivial)
  rw [if_neg beyond]
  have first : BlockPath (Early p) s
      (if s.cb.sndMax = p.counted.hdr.ack then s.updateAckState else s) ∧
      (if s.cb.sndMax = p.counted.hdr.ack then s.updateAckState else s).cb.sndUna = s.cb.sndUna ∧
      (if s.cb.sndMax = p.counted.hdr.ack then s.updateAckState else s).cb.sndMax =
        s.cb.sndMax := by
    split
    · next all =>
        obtain ⟨c, _, view⟩ := s.updateAckState_view
        exact ⟨(Block.ackAll isAck all).path rfl, congrArg (fun v : View => v.sndUna) view,
          congrArg (fun v : View => v.sndMax) view⟩
    · exact ⟨.refl _, rfl, rfl⟩
  generalize (if s.cb.sndMax = p.counted.hdr.ack then s.updateAckState else s) = s₁ at first ⊢
  obtain ⟨path₁, una₁, max₁⟩ := first
  have second : BlockPath (Early p) s
      (if UdtHdr.size < p.counted.hdr.off.toNat then s₁.handleOptions p.counted else s₁) ∧
      (if UdtHdr.size < p.counted.hdr.off.toNat then s₁.handleOptions p.counted
        else s₁).cb.sndUna = s.cb.sndUna ∧
      (if UdtHdr.size < p.counted.hdr.off.toNat then s₁.handleOptions p.counted
        else s₁).cb.sndMax = s.cb.sndMax := by
    split
    · obtain ⟨una₂, max₂⟩ := s₁.handleOptions_seqs p.counted
      exact ⟨path₁.trans (s₁.handleOptions_blocks p.counted (fun _ => trivial) fun _ _ => rfl),
        una₂.trans una₁, max₂.trans max₁⟩
    · exact ⟨path₁, una₁, max₁⟩
  generalize (if UdtHdr.size < p.counted.hdr.off.toNat then s₁.handleOptions p.counted
    else s₁) = s₂ at second ⊢
  obtain ⟨path₂, una₂, max₂⟩ := second
  split
  · next same => exact .after path₂ (.inl (s₂.ackDuplicate_blocks isAck same))
  · next differ =>
      have above : seqGt p.counted.hdr.ack s₂.cb.sndUna := by
        rw [una₂] at differ ⊢
        rw [seqLt_iff] at old
        rw [seqGt_iff]
        bv_omega
      have sent : seqLe p.counted.hdr.ack s₂.cb.sndMax := by
        rw [max₂]
        exact not_not.mp beyond
      exact .inr ⟨s₂, _, path₂, .ackNew isAck above sent, .refl _⟩

theorem inputSegment_blocks (s : Endpoint) (alive : s.cb.state ≠ .closed) :
    Phased p s (s.inputSegment p.counted) := by
  rw [inputSegment_eq]
  have first : BlockPath (Early p) s (s.stored p.counted) := by
    unfold stored
    split
    · exact (Block.reass alive).path rfl
    · exact .refl _
  generalize s.stored p.counted = s₁ at first ⊢
  have fin : ∀ x : Endpoint, BlockPath (Mild p) x x.handleFin := fun x => Block.fin.path trivial
  split
  · next isAck =>
      have second := Phased.after first (s₁.handleAck_blocks isAck)
      split
      · exact second.trans (fin _)
      · exact second
  · split
    · exact (Phased.after first (.inl (.refl _))).trans (fin _)
    · exact .after first (.inl (.refl _))

theorem doHeaderPrediction_blocks (s : Endpoint) :
    Phased p s (s.doHeaderPrediction p).2 ∧
      ((s.doHeaderPrediction p).1 = false → (s.doHeaderPrediction p).2 = s) := by
  rw [doHeaderPrediction]
  dsimp only
  split
  case isFalse => exact ⟨.inl (.refl _), fun _ => rfl⟩
  case isTrue usual =>
    obtain ⟨state, flags, next, _, win, _⟩ := usual
    obtain ⟨noSyn, _, isAck⟩ := predicted_flags _ flags
    have plain : p = p.counted := by simp [UdtPacket.counted, noSyn]
    by_cases bare : p.hdr.len = 0
    case pos =>
      rw [if_pos bare]
      split
      case isFalse => exact ⟨.inl (.refl _), fun _ => rfl⟩
      case isTrue new =>
        refine ⟨?_, fun contra => by simp at contra⟩
        have acked := Block.ackPredicted state isAck new.1 new.2.1 win
        have sent : BlockPath (Mild p) (s.ackPredicted p.hdr.ack)
            (s.ackPredicted p.hdr.ack).outputData := by
          unfold outputData
          split
          · exact (output_inner _).mono fun _ _ inner => by rw [show _ = _ from inner]; trivial
          · exact .refl _
        exact .inr ⟨s, _, .refl _, plain ▸ acked, sent⟩
    case neg =>
      rw [if_neg bare]
      split
      case isFalse => exact ⟨.inl (.refl _), fun _ => rfl⟩
      case isTrue room =>
        have fits := rcvBuf_append room.2.2
        rw [fits]
        refine ⟨.inl ?_, fun contra => by simp at contra⟩
        exact (Block.storePredicted state next room.2.1 fits).path plain

/-- The packet with its SYN counted is what the rest of `input` works on. -/
theorem handleSyn_counted (s : Endpoint) (isSyn : hasSyn p.hdr.flags = true) :
    (s.handleSyn p).2.1 = p.counted := by
  rw [UdtPacket.counted, if_pos isSyn, handleSyn]
  dsimp only
  split <;> rfl

theorem inputChecked_blocks (s : Endpoint) : Phased p s (s.inputChecked p) := by
  rw [inputChecked]
  dsimp only
  have arrived : BlockPath (Early p) s
      { s with cb.pseq := p.hdr.seq, cb.idle := 0, cb.tKeep := sKeepidle } :=
    Block.arrived.path trivial
  have sampled := arrived.trans ((@Block.sampled _ p.hdr.pseq).path trivial)
  generalize updateRtt
    { s with cb.pseq := p.hdr.seq, cb.idle := 0, cb.tKeep := sKeepidle } p.hdr.pseq = x
    at sampled ⊢
  refine .after sampled ?_
  by_cases closed : x.cb.state = .closed
  · rw [if_pos closed]
    split
    · exact .inl ((Block.hangup (by simp)).path trivial)
    · exact .inl (.refl _)
  rw [if_neg closed]
  by_cases rst : hasRst p.hdr.flags = true
  · rw [if_pos rst]
    exact .inl ((Block.hangup (by simp)).path trivial)
  rw [if_neg rst, dropOutOfRcvWndPacket_eq]
  have windowed : BlockPath (Early p) x x.withRcvWnd := Block.windowed.path trivial
  by_cases out : x.withRcvWnd.outOfRcvWnd p.hdr = true
  · rw [if_pos out]
    exact .after windowed (.inl (Block.owed.path trivial))
  rw [if_neg out]
  refine .after windowed ?_
  have alive : x.withRcvWnd.cb.state ≠ .closed := closed
  dsimp only
  generalize x.withRcvWnd = w at alive ⊢
  obtain ⟨fast, missed⟩ := w.doHeaderPrediction_blocks (p := p)
  generalize w.doHeaderPrediction p = result at fast missed ⊢
  obtain ⟨_ | _, y⟩ := result
  case true => exact fast
  case false =>
    obtain rfl : y = w := missed rfl
    dsimp only
    split
    · next isSyn =>
        have synced : BlockPath (Early p) y (y.handleSyn p).2.2 :=
          (Block.syn alive isSyn).path rfl
        have counted := y.handleSyn_counted isSyn
        have alive' : (y.handleSyn p).2.2.cb.state ≠ .closed := by
          have state : (y.handleSyn p).2.2.cb.state = _ :=
            congrArg (fun v : View => v.state) (y.handleSyn_view p)
          rw [state]
          split
          · simp
          · exact alive
        generalize y.handleSyn p = outcome at synced counted alive' ⊢
        obtain ⟨_ | _, q, z⟩ := outcome
        · obtain rfl : q = p.counted := counted
          exact .after synced (z.inputSegment_blocks alive')
        · exact .inl (synced.mono fun _ _ => Early.mild)
    · next noSyn =>
        have plain : p.counted = p := by simp [UdtPacket.counted, noSyn]
        have path := y.inputSegment_blocks (p := p) alive
        rwa [plain] at path

end Input

theorem rest_path {s t : Endpoint} (block : Block s .rest t) : BlockPath Late s t :=
  block.path (.inr (.inl rfl))

theorem inner_late {s t : Endpoint} (path : BlockPath Inner s t) : BlockPath Late s t :=
  path.mono fun _ _ same => .inl same

theorem commitOutput_blocks (s : Endpoint) : BlockPath Inner s s.commitOutput := by
  unfold commitOutput
  split
  · exact s.output_inner
  · exact .refl _

theorem notifyReadable_blocks (s : Endpoint) : BlockPath Inner s s.notifyReadable := by
  unfold notifyReadable onReadable
  split
  · split
    · exact s.recvData_blocks
    · exact .refl _
  · exact .refl _

theorem commitReset_blocks (s : Endpoint) : BlockPath Late s s.commitReset := by
  unfold commitReset
  split
  · exact rest_path .reset
  · exact .refl _

theorem commitRead_blocks (s : Endpoint) : BlockPath Late s s.commitRead := by
  unfold commitRead
  split
  · exact (inner_late s.notifyReadable_blocks).trans (rest_path .readDone)
  · exact .refl _

theorem commitWrite_blocks (s : Endpoint) : BlockPath Late s s.commitWrite := by
  unfold commitWrite
  split
  · exact (inner_late s.onWritable_blocks).trans (rest_path .writeDone)
  · exact .refl _

theorem commitDrop_blocks (s : Endpoint) : BlockPath Late s s.commitDrop := by
  unfold commitDrop
  split
  · next due => exact (s.drop_blocks s.cb.lastError (.inr due)).trans (rest_path .dropDone)
  · exact .refl _

/-- After its `output` a packet's processing brings up nothing more to acknowledge. -/
theorem commitRest_blocks (s : Endpoint) : BlockPath Late s.commitOutput s.commitNotifies :=
  (((commitReset_blocks _).trans (commitRead_blocks _)).trans (commitWrite_blocks _)).trans
    (commitDrop_blocks _)

/-- `handle_receive` after `input`: the buffer is given up when the packet was kept. -/
def received (s : Endpoint) : Endpoint :=
  match s.pktConsumed with
  | (true, s) => { s with sk.rcvPkt := none }.doReceive
  | (false, s) => s.doReceive

theorem pktConsumed_blocks (s : Endpoint) : BlockPath Late s s.pktConsumed.2 := by
  unfold pktConsumed
  split
  · exact rest_path .consumed
  · exact .refl _

theorem received_blocks (s : Endpoint) : BlockPath Late s s.received := by
  have late := s.pktConsumed_blocks
  unfold received
  generalize s.pktConsumed = result at late ⊢
  obtain ⟨_ | _, x⟩ := result
  · exact late.trans (rest_path .receiving)
  · exact (late.trans (rest_path (s := x) .released)).trans (rest_path .receiving)

theorem input_intact (s : Endpoint) {hdr : UdtHdr} {n : Nat} (good : intact hdr n)
    (mem : List UChar) (buffer : Nat) : s.input ⟨hdr, mem, buffer⟩ n =
      (s.inputChecked (hostPacket hdr mem buffer)).commitNotifies.pktConsumed := by
  obtain ⟨long, plain, whole⟩ := good
  rw [input, if_neg (not_lt.mpr long), if_neg (by simpa using plain)]
  exact if_neg (not_not.mpr whole)

theorem input_damaged (s : Endpoint) {hdr : UdtHdr} {n : Nat} (bad : ¬ intact hdr n)
    (mem : List UChar) (buffer : Nat) : s.input ⟨hdr, mem, buffer⟩ n = (false, s) := by
  rw [input]
  split
  · rfl
  next long =>
  split
  · rfl
  next plain => exact if_pos fun whole => bad ⟨not_lt.mp long, by simpa using plain, whole⟩

/-- A whole datagram is processed once a buffer waits for it. -/
theorem handleReceive_good {s : Endpoint} {hdr : UdtHdr} {mem : List UChar} {n buffer : Nat}
    (alive : s.sk.nextLayer = true) (pending : s.sk.rcvPkt = some buffer) (good : intact hdr n) :
    s.handleReceive hdr mem n =
      (s.inputChecked (hostPacket hdr mem buffer)).commitNotifies.received := by
  rw [handleReceive, if_neg (by simp [alive]), pending]
  dsimp only
  rw [s.input_intact good]
  rfl

/-- A datagram either fails the checks on it alone, or is processed. -/
theorem handleReceive_cases (s : Endpoint) (hdr : UdtHdr) (mem : List UChar) (n : Nat) :
    (s.handleReceive hdr mem n = s ∨ s.handleReceive hdr mem n = s.doReceive) ∨
      ∃ buffer, s.sk.nextLayer = true ∧ s.sk.rcvPkt = some buffer ∧ intact hdr n ∧
        s.handleReceive hdr mem n =
          (s.inputChecked (hostPacket hdr mem buffer)).commitNotifies.received := by
  by_cases alive : s.sk.nextLayer = true
  case neg =>
    rw [handleReceive, if_pos (by simpa using alive)]
    exact .inl (.inl rfl)
  case pos =>
    cases pending : s.sk.rcvPkt with
    | none =>
        rw [handleReceive, if_neg (by simp [alive]), pending]
        exact .inl (.inl rfl)
    | some buffer =>
        by_cases good : intact hdr n
        case pos => exact .inr ⟨buffer, alive, rfl, good, handleReceive_good alive pending good⟩
        case neg =>
          rw [handleReceive, if_neg (by simp [alive]), pending]
          dsimp only
          rw [s.input_damaged good]
          exact .inl (.inr rfl)

theorem handleReceive_blocks (s : Endpoint) (hdr : UdtHdr) (mem : List UChar) (n : Nat) :
    BlockPath Late s (s.handleReceive hdr mem n) ∨
      ∃ buffer, s.sk.nextLayer = true ∧ s.sk.rcvPkt = some buffer ∧ intact hdr n ∧
        Phased (hostPacket hdr mem buffer) s (s.inputChecked (hostPacket hdr mem buffer)) ∧
        BlockPath Late (s.inputChecked (hostPacket hdr mem buffer)).commitOutput
          (s.handleReceive hdr mem n) := by
  rcases s.handleReceive_cases hdr mem n with (same | same) |
    ⟨buffer, alive, pending, good, result⟩
  · rw [same]
    exact .inl (.refl _)
  · rw [same]
    exact .inl (rest_path .receiving)
  · refine .inr ⟨buffer, alive, pending, good, s.inputChecked_blocks, ?_⟩
    rw [result]
    exact (commitRest_blocks _).trans (received_blocks _)

section Timers

variable (s : Endpoint)

theorem slowRexmt_blocks : BlockPath Late s s.slowRexmt := by
  unfold slowRexmt
  split
  · exact .refl _
  · next running =>
      dsimp only
      split
      · next last =>
          unfold rexmtExpired
          dsimp only
          split
          · exact (rest_path (.rexmtExceeded running last)).trans (drop_blocks _ _ (.inl (by simp)))
          · next within =>
              exact (rest_path (.rexmtBegun running last within)).trans
                (inner_late (output_inner _))
      · exact rest_path (.rexmtTick running)

theorem slowPersist_blocks : BlockPath Late s s.slowPersist := by
  unfold slowPersist
  split
  · exact .refl _
  · next running =>
      dsimp only
      split
      · next last =>
          have begun := rest_path (.persistBegun running last)
          have sent := inner_late (output_inner s.persistBegun)
          exact (begun.trans sent).trans (rest_path .forced)
      · exact rest_path (.persistTick running)

theorem slowKeep_blocks : BlockPath Late s s.slowKeep := by
  unfold slowKeep
  split
  · exact .refl _
  · dsimp only
    split
    · have tick : BlockPath Late s { s with cb.tKeep := s.cb.tKeep - 1 } := rest_path .keep
      unfold keepExpired
      split
      · exact tick.trans (drop_blocks _ _ (.inl (by simp)))
      · split
        · split
          · exact tick.trans (drop_blocks _ _ (.inl (by simp)))
          · exact (tick.trans (rest_path .keepProbe)).trans (rest_path .keep)
        · exact tick.trans (rest_path .keep)
    · exact rest_path .keep

theorem slow2msl_blocks : BlockPath Late s s.slow2msl := by
  unfold slow2msl
  split
  · exact .refl _
  · dsimp only
    split
    · exact (rest_path .twoMslTick).trans (drop_blocks _ _ (.inl (by simp)))
    · exact rest_path .twoMslTick

theorem handleSlowTimo_blocks : BlockPath Late s s.handleSlowTimo :=
  ((((s.slowRexmt_blocks).trans (slowPersist_blocks _)).trans (slowKeep_blocks _)).trans
    (slow2msl_blocks _)).trans (rest_path .ticked)

end Timers

end Endpoint

open Endpoint Tag in
/-- The tags of an event's blocks; those of a packet are known once a buffer waits for it. -/
def Event.Tags (s : Endpoint) : Event → Tag → Prop
  | .connect h, a => a = .connect h ∨ a = .inner
  | .accept h, a => a = .accept h
  | .packet hdr mem n, a => Late s a ∨ ∃ buffer, s.sk.rcvPkt = some buffer ∧ intact hdr n ∧
      (Mild (hostPacket hdr mem buffer) s a ∨ a = .ack (hostPacket hdr mem buffer).counted)
  | .slowTimo, a => Late s a
  | .fastTimo, a => a = .fast ∨ a = .inner
  | .send op, a => a = .send op ∨ a = .inner
  | .receive op, a => a = .receive op ∨ a = .inner
  | .shutdown h, a => a = .shutdown h ∨ a = .inner
  | .delayTimer _, a => Late s a
  | .receiveError _, a => a = .rest ∨ Ending s a
  | .mtu, a | .setKeepalive _, a => a = .rest
  | .setSndBuf _, a | .setRcvBuf _, a => a = .limit
  | .cancel, a => a = .cancel
  | .close, a => a = .cancel ∨ a = .close

namespace Endpoint

open Tag

/-- A request of the user is one block, with blocks of `output` and of reads behind it. -/
def Requested (a : Tag) (s t : Endpoint) : Prop := ∃ m, Block s a m ∧ BlockPath Inner m t

theorem Requested.path {s t : Endpoint} {a : Tag} (requested : Requested a s t) :
    BlockPath (fun _ b => b = a ∨ b = .inner) s t := by
  obtain ⟨m, block, path⟩ := requested
  have first : BlockPath (fun _ b => b = a ∨ b = .inner) s m := block.path (.inl rfl)
  exact first.trans (path.mono fun _ _ inner => .inr inner)

theorem asyncShutdown_cases (s : Endpoint) (h : Nat) (alive : s.sk.nextLayer = true) :
    s.asyncShutdown h = s.closing h ∨ s.asyncShutdown h = (s.closing h).output := by
  rw [asyncShutdown, if_pos alive]
  unfold shutdown Endpoint.closing
  cases state : s.cb.state <;> simp [state]

theorem shutdown_blocks (s : Endpoint) (h : Nat) (alive : s.sk.nextLayer = true) :
    Requested (.shutdown h) s (s.asyncShutdown h) := by
  refine ⟨s.closing h, .shutdown alive, ?_⟩
  rcases s.asyncShutdown_cases h alive with plain | output
  · rw [plain]
    exact .refl _
  · rw [output]
    exact output_inner _

theorem send_blocks (s : Endpoint) (op : SendOperation) (alive : s.sk.nextLayer = true) :
    Requested (.send op) s (s.asyncSend op) := by
  have open_ : ¬ (!s.sk.nextLayer) = true := by simp [alive]
  rw [asyncSend_eq, if_neg open_]
  split
  · next bad => exact ⟨_, .sendRefused alive bad, .refl _⟩
  next good =>
    rw [not_or, not_or, not_not] at good
    refine ⟨s.queueSend op, .sendQueued alive good.1 good.2.1 good.2.2, ?_⟩
    have consumed : BlockPath Inner (s.queueSend op) (s.queueSend op).consumePendingData.2 :=
      (Block.output .consume).path rfl
    split
    · exact consumed.trans (output_inner _)
    · exact consumed

theorem receive_blocks (s : Endpoint) (op : RecvOperation) (alive : s.sk.nextLayer = true) :
    Requested (.receive op) s (s.asyncReceive op) := by
  have open_ : ¬ (!s.sk.nextLayer) = true := by simp [alive]
  rw [asyncReceive, if_neg open_]
  split
  · next bad => exact ⟨_, .receiveRefused alive bad, .refl _⟩
  next good =>
    rw [not_or, not_or, not_not] at good
    exact ⟨_, .receiveQueued alive good.2.2, recvData_blocks _⟩

theorem doReceive_cb (s : Endpoint) : s.doReceive.cb = s.cb := by
  unfold doReceive
  split
  · split <;> rfl
  · rfl

theorem connect_blocks (s : Endpoint) (h : Nat) (alive : s.sk.nextLayer = true) :
    Requested (.connect h) s (s.asyncConnect h) := by
  have state : ({ s with sk.connectHandler := some h } : Endpoint).doReceive.cb.state =
      s.cb.state := congrArg UdtCb.state (doReceive_cb _)
  rw [asyncConnect, if_pos alive]
  unfold connect
  rw [state]
  split
  · next busy => exact ⟨_, .connectBusy alive busy, .refl _⟩
  · next idle => exact ⟨s.connecting h, .connect alive (not_not.mp idle), output_inner _⟩

theorem accept_blocks (s : Endpoint) (h : Nat) (alive : s.sk.nextLayer = true) :
    Block s (.accept h) (s.asyncAccept h) := by
  have state : ({ s with sk.acceptHandler := some h } : Endpoint).doReceive.cb.state =
      s.cb.state := congrArg UdtCb.state (doReceive_cb _)
  rw [asyncAccept, if_pos alive]
  unfold accept
  rw [state]
  split
  · next busy => exact .acceptBusy alive busy
  · next idle => exact .accept alive (not_not.mp idle)

theorem Phased.path {p : UdtPacket} {s t : Endpoint} (phased : Phased p s t) :
    BlockPath (fun s a => Mild p s a ∨ a = .ack p.counted) s t := by
  rcases phased with path | ⟨m, x, early, ack, path⟩
  · exact path.mono fun _ _ => .inl
  · have first := early.mono (D := fun s a => Mild p s a ∨ a = .ack p.counted)
      fun _ _ early => .inl early.mild
    exact (first.trans (ack.path (.inr rfl))).trans (path.mono fun _ _ => .inl)

theorem step_blocks (s : Endpoint) (e : Event) :
    BlockPath (fun _ a => e.Tags s a) s (s.step e) := by
  cases e with
  | connect h =>
      by_cases alive : s.sk.nextLayer = true
      · exact (s.connect_blocks h alive).path
      · change BlockPath _ s (s.asyncConnect h)
        rw [asyncConnect, if_neg alive]
        exact .refl _
  | accept h =>
      by_cases alive : s.sk.nextLayer = true
      · exact (s.accept_blocks h alive).path rfl
      · change BlockPath _ s (s.asyncAccept h)
        rw [asyncAccept, if_neg alive]
        exact .refl _
  | packet hdr mem n =>
      rcases s.handleReceive_blocks hdr mem n with late | ⟨buffer, _, pending, good, phased, late⟩
      · exact late.mono fun _ _ late => .inl late
      · have checked : BlockPath (fun _ a => (Event.packet hdr mem n).Tags s a) s
            (s.inputChecked (hostPacket hdr mem buffer)) :=
          phased.path.mono fun _ _ met => .inr ⟨buffer, pending, good, met⟩
        exact checked.trans (((inner_late (commitOutput_blocks _)).trans late).mono
          fun _ _ late => .inl late)
  | slowTimo =>
      change BlockPath _ s s.slowTimer
      unfold slowTimer
      split
      · exact s.handleSlowTimo_blocks
      · exact .refl _
  | fastTimo =>
      change BlockPath (fun _ a => a = .fast ∨ a = .inner) s s.fastTimer
      unfold fastTimer handleFastTimo
      split
      · split
        · next due =>
            have begun : BlockPath (fun _ a => a = .fast ∨ a = .inner) s
                { s with cb.flags := { s.cb.flags with delack := false, acknow := true } } :=
              (Block.delackDue due).path (.inl rfl)
            exact begun.trans ((output_inner _).mono fun _ _ inner => .inr inner)
        · exact .refl _
      · exact .refl _
  | send op =>
      by_cases alive : s.sk.nextLayer = true
      · exact (s.send_blocks op alive).path
      · change BlockPath _ s (s.asyncSend op)
        rw [asyncSend, if_pos (by simpa using alive)]
        exact .refl _
  | receive op =>
      by_cases alive : s.sk.nextLayer = true
      · exact (s.receive_blocks op alive).path
      · change BlockPath _ s (s.asyncReceive op)
        rw [asyncReceive, if_pos (by simpa using alive)]
        exact .refl _
  | shutdown h =>
      by_cases alive : s.sk.nextLayer = true
      · exact (s.shutdown_blocks h alive).path
      · change BlockPath _ s (s.asyncShutdown h)
        rw [asyncShutdown, if_neg alive]
        exact .refl _
  | delayTimer aborted => exact s.handleDelayRecvOperation_blocks aborted
  | receiveError value =>
      change BlockPath (fun _ a => a = .rest ∨ Ending s a) s (s.handleReceiveError value)
      rw [handleReceiveError_eq]
      split
      · have released : BlockPath (fun _ a => a = .rest ∨ Ending s a) s
            { s with sk.rcvPkt := none } := Block.released.path (.inl rfl)
        exact released.trans ((onDisconnected_blocks _).mono fun _ _ => .inr)
      · exact .refl _
  | mtu =>
      change BlockPath (fun _ a => a = .rest) s s.handleMtu
      unfold handleMtu
      split
      · exact Block.mtu.path rfl
      · exact .refl _
  | setKeepalive on => exact Block.keepalive.path rfl
  | setSndBuf v => exact Block.sndLimit.path rfl
  | setRcvBuf v => exact Block.rcvLimit.path rfl
  | cancel => exact Block.cancel.path rfl
  | close =>
      change BlockPath (fun _ a => a = .cancel ∨ a = .close) s s.close
      unfold Endpoint.close
      split
      · have cancelled : BlockPath (fun _ a => a = .cancel ∨ a = .close) s s.cancel :=
          Block.cancel.path (.inl rfl)
        exact cancelled.trans (Block.close.path (.inr rfl))
      · exact .refl _

/-- What every block keeps, every event keeps. -/
theorem step_keeps {I : Endpoint → Prop} (s : Endpoint) (e : Event)
    (base : ∀ {s a t}, a ≠ .disconnect → I s → Block s a t → I t) (holds : I s) : I (s.step e) :=
  (s.step_blocks e).invariant holds fun _ _ _ inv _ block =>
    Block.keeps block inv fun whole _ inv block => base whole inv block

end Endpoint
end UdtBoost
