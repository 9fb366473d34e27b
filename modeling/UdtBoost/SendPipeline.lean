import UdtBoost.SendQueue
import UdtBoost.Capacity

/-! Send operations on their way into `snd_buf`: from `async_send` through the queue to the packets
they are cut into. -/
namespace UdtBoost

def SendOperation.bytes (op : SendOperation) : List UChar := op.buf.data.getD []

/-- The packets whole operations are cut into, the first byte at `seq`. -/
def cut (segSize : Nat) (seq : Word) : List SendOperation → List UdtPacket
  | [] => []
  | op :: ops =>
      UdtBuf.segment segSize op.buf.size seq op.bytes ++
        cut segSize (seq + BitVec.ofNat 32 op.buf.size) ops

open UdtBuf (opsLen)

theorem opsLen_cons (op : SendOperation) (ops : List SendOperation) :
    opsLen (op :: ops) = op.buf.size + opsLen ops := by
  simp [opsLen]

@[simp] theorem opsLen_append (ops more : List SendOperation) :
    opsLen (ops ++ more) = opsLen ops + opsLen more := by
  simp [opsLen]

theorem cut_append (segSize : Nat) (seq : Word) (ops more : List SendOperation) :
    cut segSize seq (ops ++ more) =
      cut segSize seq ops ++ cut segSize (seq + BitVec.ofNat 32 (opsLen ops)) more := by
  induction ops generalizing seq with
  | nil => simp [cut, opsLen]
  | cons op ops ih =>
      rw [List.cons_append, cut, cut, ih, List.append_assoc, opsLen_cons, BitVec.ofNat_add,
        BitVec.add_assoc]

theorem cut_unflagged (segSize : Nat) (seq : Word) (ops : List SendOperation) :
    (cut segSize seq ops).map UdtPacket.unflagged = cut segSize seq ops := by
  induction ops generalizing seq with
  | nil => rfl
  | cons op ops ih => rw [cut, List.map_append, UdtBuf.segment_unflagged, ih]

/-- `ps` are `data`, cut into packets of at most `segSize` bytes from `seq` on. -/
structure CutInto (segSize : Nat) (seq : Word) (data : List UChar) (ps : List UdtPacket) : Prop where
  payload_eq : payload ps = data
  follow : Contiguous seq ps
  sizes : ∀ p ∈ ps, 0 < p.hdr.len.toNat ∧ p.hdr.len.toNat ≤ segSize
  offs : ∀ p ∈ ps, p.hdr.off.toNat = UdtHdr.size
  total : totalLen ps = data.length

theorem CutInto.nil (segSize : Nat) (seq : Word) : CutInto segSize seq [] [] :=
  ⟨rfl, trivial, by simp, by simp, rfl⟩

theorem CutInto.append {segSize : Nat} {seq : Word} {data more : List UChar}
    {ps qs : List UdtPacket} (first : CutInto segSize seq data ps)
    (second : CutInto segSize (seq + BitVec.ofNat 32 data.length) more qs) :
    CutInto segSize seq (data ++ more) (ps ++ qs) where
  payload_eq := by rw [payload_append, first.payload_eq, second.payload_eq]
  follow := first.follow.append (by rw [first.total]; exact second.follow)
  sizes := List.forall_mem_append.mpr ⟨first.sizes, second.sizes⟩
  offs := List.forall_mem_append.mpr ⟨first.offs, second.offs⟩
  total := by rw [totalLen_append, first.total, second.total, List.length_append]

/-- The segmentation loop. -/
theorem UdtBuf.segment_cut {segSize : Nat} (large : 0 < segSize) (small : segSize < 2 ^ 16)
    (fuel : Nat) (seq : Word) (data : List UChar) (enough : data.length ≤ fuel) :
    CutInto segSize seq data (segment segSize fuel seq data) := by
  induction fuel generalizing seq data with
  | zero =>
      obtain rfl := List.eq_nil_of_length_eq_zero (Nat.le_zero.mp enough)
      exact CutInto.nil segSize seq
  | succ fuel ih =>
      rw [segment]
      split
      · next empty =>
          rw [empty]
          exact CutInto.nil segSize seq
      · next some_ =>
          have long : 0 < data.length := List.length_pos_iff.mpr some_
          have size : (data.take segSize).length = min segSize data.length := List.length_take
          have len : (alloc seq (data.take segSize)).hdr.len.toNat = (data.take segSize).length := by
            change (BitVec.ofNat 16 _).toNat = _
            rw [BitVec.toNat_ofNat]
            exact Nat.mod_eq_of_lt (by omega)
          have bytes : (alloc seq (data.take segSize)).data = data.take segSize := by
            have off : (alloc seq (data.take segSize)).hdr.off.toNat = UdtHdr.size := rfl
            rw [UdtPacket.data_of_le (Nat.le_of_eq off.symm), off, len, Nat.sub_self, List.drop_zero]
            exact List.take_length
          have head : CutInto segSize seq (data.take segSize) [alloc seq (data.take segSize)] := by
            refine ⟨?_, ⟨rfl, trivial⟩, ?_, ?_, ?_⟩
            · rw [payload_cons, payload_nil, List.append_nil, bytes]
            · rintro p member
              obtain rfl := List.mem_singleton.mp member
              omega
            · rintro p member
              obtain rfl := List.mem_singleton.mp member
              rfl
            · rw [totalLen_cons, totalLen_nil, len, Nat.add_zero]
          have rest := ih (seq + BitVec.ofNat 32 (min data.length segSize)) (data.drop segSize)
            (by rw [List.length_drop]; omega)
          rw [Nat.min_comm, ← size] at rest
          have whole := head.append rest
          rw [List.take_append_drop] at whole
          rwa [Nat.min_comm, ← size]

/-- Flags apart, the packets are the same. -/
theorem CutInto.of_unflagged {segSize : Nat} {seq : Word} {data : List UChar} {ps : List UdtPacket}
    (into : CutInto segSize seq data (ps.map UdtPacket.unflagged)) : CutInto segSize seq data ps where
  payload_eq := by
    rw [← into.payload_eq]
    have offs := List.forall_mem_map.mp into.offs
    clear into
    induction ps with
    | nil => rfl
    | cons p ps ih =>
        obtain ⟨here, later⟩ := List.forall_mem_cons.mp offs
        have off : UdtHdr.size ≤ p.hdr.off.toNat := Nat.le_of_eq here.symm
        rw [List.map_cons, payload_cons, payload_cons, ih later, UdtPacket.data_of_le off,
          UdtPacket.data_of_le (p := p.unflagged) off]
        rfl
  follow := by
    have follow := into.follow
    clear into
    induction ps generalizing seq with
    | nil => trivial
    | cons p ps ih => exact ⟨follow.1, ih follow.2⟩
  sizes := List.forall_mem_map.mp into.sizes
  offs := List.forall_mem_map.mp into.offs
  total := by rw [← into.total, Endpoint.totalLen_unflagged]

theorem cut_cut {segSize : Nat} (large : 0 < segSize) (small : segSize < 2 ^ 16) (seq : Word)
    (ops : List SendOperation) :
    CutInto segSize seq (ops.flatMap SendOperation.bytes) (cut segSize seq ops) := by
  induction ops generalizing seq with
  | nil => exact CutInto.nil segSize seq
  | cons op ops ih =>
      rw [cut, List.flatMap_cons]
      exact (UdtBuf.segment_cut large small _ seq op.bytes (Nat.le_refl _)).append
        (ih (seq + BitVec.ofNat 32 op.buf.size))

theorem UdtBuf.appendOps_cut {segSize : Nat} {ops : List SendOperation} {b b' : UdtBuf}
    (appended : b.appendOps segSize ops = some b') :
    b'.pkts = b.pkts ++ cut segSize b.seq ops ∧ b'.seq = b.seq + BitVec.ofNat 32 (opsLen ops) ∧
      b'.cc = b.cc + BitVec.ofNat 32 (opsLen ops) ∧ b'.hiwat = b.hiwat := by
  induction ops generalizing b with
  | nil =>
      obtain rfl := Option.some.inj appended
      simp [cut, opsLen]
  | cons op ops ih =>
      rw [appendOps, Option.bind_eq_some_iff] at appended
      obtain ⟨c, first, rest⟩ := appended
      obtain ⟨pkts, seq, cc, hiwat⟩ := ih rest
      rw [pkts, seq, cc, hiwat, opsLen_cons, cut]
      unfold appendData at first
      rcases op with ⟨⟨_ | data⟩, handler⟩
      · contradiction
      · dsimp only at first
        split at first
        case isTrue => contradiction
        case isFalse =>
          obtain rfl := Option.some.inj first
          refine ⟨List.append_assoc _ _ _, ?_, ?_, rfl⟩
          all_goals
            rw [BitVec.ofNat_add, ← BitVec.add_assoc]
            rfl

/-- The completions of send operations that moved bytes. -/
def sentBytes (posted : List Completion) : List (SendOperation × Nat) :=
  posted.filterMap fun
    | .sent op .succeed n => if n = 0 then none else some (op, n)
    | _ => none

@[simp] theorem sentBytes_append (posted more : List Completion) :
    sentBytes (posted ++ more) = sentBytes posted ++ sentBytes more := List.filterMap_append

/-- The user gave it data. -/
def SendOperation.Filled (op : SendOperation) : Prop := op.buf.size ≠ 0 ∧ op.buf.data ≠ none

theorem sentBytes_done {ops : List SendOperation} (filled : ∀ op ∈ ops, op.Filled) :
    sentBytes (ops.map fun op => .sent op .succeed op.buf.size) =
      ops.map fun op => (op, op.buf.size) := by
  induction ops with
  | nil => rfl
  | cons op ops ih =>
      obtain ⟨here, later⟩ := List.forall_mem_cons.mp filled
      have rest := ih later
      unfold sentBytes at rest ⊢
      rw [List.map_cons, List.filterMap_cons, rest]
      simp [here.1]

namespace Endpoint

/-- Between `s` and `t` the operations `ops` left the queue for the buffer, and nothing else
happened to either. -/
structure Drains (s : Endpoint) (ops : List SendOperation) (t : Endpoint) : Prop where
  queue : s.sk.sendOps = ops ++ t.sk.sendOps
  pkts : t.sk.sndBuf.pkts.map UdtPacket.unflagged =
    s.sk.sndBuf.pkts.map UdtPacket.unflagged ++ cut s.cb.maxseg.toNat s.sk.sndBuf.seq ops
  seq : t.sk.sndBuf.seq = s.sk.sndBuf.seq + BitVec.ofNat 32 (opsLen ops)
  cc : t.sk.sndBuf.cc = s.sk.sndBuf.cc + BitVec.ofNat 32 (opsLen ops)
  hiwat : t.sk.sndBuf.hiwat = s.sk.sndBuf.hiwat
  pending : t.sk.pendingData = s.sk.pendingData - BitVec.ofNat 32 (opsLen ops)
  maxseg : t.cb.maxseg = s.cb.maxseg
  posted : t.posted = s.posted ++ ops.map fun op => .sent op .succeed op.buf.size

theorem Drains.refl (s : Endpoint) : s.Drains [] s where
  queue := rfl
  pkts := by simp [cut]
  seq := by simp [opsLen]
  cc := by simp [opsLen]
  hiwat := rfl
  pending := by simp [opsLen]
  maxseg := rfl
  posted := by simp

theorem Drains.trans {s t u : Endpoint} {ops more : List SendOperation} (first : s.Drains ops t)
    (second : t.Drains more u) : s.Drains (ops ++ more) u where
  queue := by rw [first.queue, second.queue, List.append_assoc]
  pkts := by
    rw [second.pkts, first.pkts, first.maxseg, first.seq, cut_append, List.append_assoc]
  seq := by rw [second.seq, first.seq, opsLen_append, BitVec.ofNat_add, BitVec.add_assoc]
  cc := by rw [second.cc, first.cc, opsLen_append, BitVec.ofNat_add, BitVec.add_assoc]
  hiwat := second.hiwat.trans first.hiwat
  pending := by
    rw [second.pending, first.pending, opsLen_append, BitVec.ofNat_add, BitVec.sub_sub]
  maxseg := second.maxseg.trans first.maxseg
  posted := by rw [second.posted, first.posted, List.map_append, List.append_assoc]

/-- Nothing left the queue. -/
theorem Drains.of_eq {s t : Endpoint} (queue : t.sk.sendOps = s.sk.sendOps)
    (pkts : t.sk.sndBuf.pkts.map UdtPacket.unflagged = s.sk.sndBuf.pkts.map UdtPacket.unflagged)
    (buf : { t.sk.sndBuf with pkts := [] } = { s.sk.sndBuf with pkts := [] })
    (pending : t.sk.pendingData = s.sk.pendingData)
    (maxseg : t.cb.maxseg = s.cb.maxseg) (posted : t.posted = s.posted) : s.Drains [] t where
  queue := queue.symm
  pkts := by simp [pkts, cut]
  seq := by simpa [opsLen] using congrArg UdtBuf.seq buf
  cc := by simpa [opsLen] using congrArg UdtBuf.cc buf
  hiwat := by simpa using congrArg UdtBuf.hiwat buf
  pending := by simp [pending, opsLen]
  maxseg := maxseg
  posted := by simp [posted]

theorem consumePendingData_drains (s : Endpoint) : ∃ ops, s.Drains ops s.consumePendingData.2 := by
  obtain ⟨ops, rest, b, queue, appended, result⟩ := s.consumePendingData_spec
  obtain ⟨pkts, seq, cc, hiwat⟩ := UdtBuf.appendOps_cut appended
  rw [result]
  refine ⟨ops, queue, ?_, seq, cc, hiwat, rfl, rfl, rfl⟩
  change b.pkts.map UdtPacket.unflagged = _
  rw [pkts, List.map_append, cut_unflagged]

theorem Selects.drains {s u : Endpoint} {pkt : Option UdtPacket} (selects : s.Selects pkt u) :
    s.Drains [] u := by
  cases selects with
  | nothing => exact .refl s
  | closedWindow => exact .of_eq rfl rfl rfl rfl rfl rfl
  | fresh => exact .of_eq rfl rfl rfl rfl rfl rfl
  | again queue =>
      refine .of_eq rfl ?_ rfl rfl rfl rfl
      rw [queue, List.map_append, List.map_append, List.map_cons, List.map_cons]
      rfl

theorem ready_drains {s u : Endpoint} {pkt : Option UdtPacket} (selects : s.Selects pkt u) :
    s.Drains [] (u.ready pkt) := by
  obtain ⟨tPersist, rxtshift, result⟩ := u.ready_eq pkt
  have kept : u.Drains [] (u.ready pkt) := by
    rw [result]
    exact .of_eq rfl rfl rfl rfl rfl rfl
  exact selects.drains.trans kept

theorem Output.drains {s t : Endpoint} (block : Output s t) : ∃ ops, s.Drains ops t := by
  cases block with
  | idle =>
      refine ⟨[], ?_⟩
      unfold outputIdle UdtCb.slowStart
      split
      · split <;> exact .of_eq rfl rfl rfl rfl rfl rfl
      · exact .refl s
  | consume => exact s.consumePendingData_drains
  | @send u canSend raw pkt env t alive select must before dgram =>
      have ready := ready_drains (outputSelect_selects select)
      obtain ⟨_, _, _, _, _, _, _, result⟩ := transmit_eq { u.ready pkt with env } pkt raw t
      refine ⟨[] ++ [], ready.trans ?_⟩
      rw [result]
      exact .of_eq rfl rfl rfl rfl rfl rfl
  | @persist u canSend pkt select can quiet =>
      have ready := ready_drains (outputSelect_selects select)
      obtain ⟨tPersist, shift, result⟩ := enterPersist_eq { u.ready pkt with cb.rxtshift := 0 }
      refine ⟨[] ++ [], ready.trans ?_⟩
      rw [result]
      exact .of_eq rfl rfl rfl rfl rfl rfl
  | wait select quiet => exact ⟨[], ready_drains (outputSelect_selects select)⟩
  | record => exact ⟨[], .of_eq rfl rfl rfl rfl rfl rfl⟩

/-- `output` takes operations from the front of the queue, whole and in order. -/
theorem output_drains (s : Endpoint) : ∃ ops, s.Drains ops s.output := by
  refine s.output_blocks.keeps (I := fun t => ∃ ops, s.Drains ops t) ⟨[], .refl s⟩ ?_
  rintro t u ⟨ops, first⟩ block
  obtain ⟨more, second⟩ := block.drains
  exact ⟨ops ++ more, first.trans second⟩

theorem onWritable_drains (s : Endpoint) : ∃ ops, s.Drains ops s.onWritable := by
  unfold onWritable
  split
  · obtain ⟨ops, consumed⟩ := s.consumePendingData_drains
    dsimp only
    split
    · obtain ⟨more, sent⟩ := s.consumePendingData.2.output_drains
      exact ⟨ops ++ more, consumed.trans sent⟩
    · exact ⟨ops, consumed⟩
  · exact ⟨[], .refl s⟩

/-- `async_send` puts the operation at the end of the queue. -/
def Accepts (s : Endpoint) (op : SendOperation) : Prop :=
  s.sk.nextLayer = true ∧ op.buf.size ≠ 0 ∧ op.buf.data ≠ none ∧ s.cb.lastError = .succeed

instance (s : Endpoint) (op : SendOperation) : Decidable (s.Accepts op) :=
  inferInstanceAs (Decidable (_ ∧ _ ∧ _ ∧ _))

theorem asyncSend_queued {s : Endpoint} {op : SendOperation} (accepts : s.Accepts op) :
    s.asyncSend op =
      if (s.queueSend op).consumePendingData.1 ≠ 0 then (s.queueSend op).consumePendingData.2.output
      else (s.queueSend op).consumePendingData.2 := by
  obtain ⟨layer, size, data, fine⟩ := accepts
  have there : ¬ (!s.sk.nextLayer) = true := by simp [layer]
  have good : ¬ (op.buf.size = 0 ∨ op.buf.data = none ∨ s.cb.lastError ≠ .succeed) := by
    simp [size, data, fine]
  rw [asyncSend_eq, if_neg there, if_neg good]

theorem asyncSend_accepted {s : Endpoint} {op : SendOperation} (accepts : s.Accepts op) :
    ∃ ops, (s.queueSend op).Drains ops (s.asyncSend op) := by
  obtain ⟨ops, consumed⟩ := (s.queueSend op).consumePendingData_drains
  rw [asyncSend_queued accepts]
  split
  · obtain ⟨more, sent⟩ := (s.queueSend op).consumePendingData.2.output_drains
    exact ⟨ops ++ more, consumed.trans sent⟩
  · exact ⟨ops, consumed⟩

theorem asyncSend_refused {s : Endpoint} {op : SendOperation} (refuses : ¬ s.Accepts op) :
    s.asyncSend op = s ∨ (s.asyncSend op = s.post (.sent op s.cb.lastError 0)) := by
  unfold asyncSend
  split
  · exact .inl rfl
  · next layer =>
      split
      · exact .inr rfl
      · next good =>
          simp only [not_or, not_not] at good
          have accepts : s.Accepts op := ⟨by simpa using layer, good⟩
          exact absurd accepts refuses

/-- The first operation does not fit: nothing moves. -/
theorem consumePendingData_refused {s : Endpoint} {op : SendOperation} {rest : List SendOperation}
    (queue : s.sk.sendOps = op :: rest)
    (refused : s.sk.sndBuf.appendData op.buf.data s.cb.maxseg.toNat = none) :
    s.consumePendingData = (0, s) := by
  unfold consumePendingData
  rw [queue, consumePendingLoop, refused]
  simp only [← queue, BitVec.sub_zero]

end Endpoint

/-- An endpoint with what `async_send` accepted from its user, and the packets that ever entered
its `snd_buf`. -/
structure Pipeline where
  s : Endpoint
  accepted : List SendOperation
  appended : List UdtPacket

namespace Pipeline

/-- A step of the pipeline. `consume_pending_data` runs in the first three. -/
inductive Op where
  | send (op : SendOperation)
  | output
  | writable
  | remove (i : Nat)

def next (s : Endpoint) : Op → Endpoint
  | .send op => s.asyncSend op
  | .output => s.output
  | .writable => s.onWritable
  | .remove i => { s with sk.sndBuf := s.sk.sndBuf.dropAt i }

/-- The operation `async_send` accepts. -/
def taken (s : Endpoint) : Op → List SendOperation
  | .send op => if s.Accepts op then [op] else []
  | _ => []

/-- The packets that are new at the end of `snd_buf`. -/
def entered (s : Endpoint) : Op → List UdtPacket
  | .remove _ => []
  | op => (next s op).sk.sndBuf.pkts.drop s.sk.sndBuf.pkts.length

def step (r : Pipeline) (op : Op) : Pipeline where
  s := next r.s op
  accepted := r.accepted ++ taken r.s op
  appended := r.appended ++ entered r.s op

def start (s : Endpoint) : Pipeline := ⟨s, [], []⟩

/-- Nothing is queued and nothing was sent yet. -/
structure Idle (s : Endpoint) : Prop where
  queue : s.sk.sendOps = []
  pending : s.sk.pendingData = 0
  posted : sentBytes s.posted = []
  maxseg : 0 < s.cb.maxseg.toNat

/-- `done` are the operations whose buffers were appended. -/
structure FirstInFirstOut (first : Word) (r : Pipeline) : Prop where
  order : ∃ done, r.accepted = done ++ r.s.sk.sendOps ∧
    sentBytes r.s.posted = done.map (fun op => (op, op.buf.size)) ∧
    payload r.appended = done.flatMap SendOperation.bytes
  follow : Contiguous first r.appended
  sizes : ∀ p ∈ r.appended, 0 < p.hdr.len.toNat ∧ p.hdr.len.toNat ≤ r.s.cb.maxseg.toNat
  pending : r.s.sk.pendingData.toNat = opsLen r.s.sk.sendOps
  refused : ∀ op rest, r.s.sk.sendOps = op :: rest →
    r.s.sk.sndBuf.appendData op.buf.data r.s.cb.maxseg.toNat = none →
      r.s.consumePendingData = (0, r.s)

/-- The operations queued stay below 2^32 bytes. -/
def Small (r : Pipeline) (op : Op) : Prop :=
  opsLen r.s.sk.sendOps + opsLen (taken r.s op) < 2 ^ 32

/-- The invariant. -/
structure Kept (segSize : Nat) (first : Word) (r : Pipeline) : Prop where
  maxseg : r.s.cb.maxseg.toNat = segSize
  filled : ∀ op ∈ r.accepted, op.Filled
  pending : r.s.sk.pendingData = BitVec.ofNat 32 (opsLen r.s.sk.sendOps)
  order : ∃ done, r.accepted = done ++ r.s.sk.sendOps ∧
    sentBytes r.s.posted = done.map (fun op => (op, op.buf.size)) ∧
    r.appended.map UdtPacket.unflagged = cut segSize first done ∧
    r.s.sk.sndBuf.seq = first + BitVec.ofNat 32 (opsLen done)

variable {segSize : Nat} {first : Word} {r : Pipeline}

theorem Kept.start {s : Endpoint} (idle : Idle s) :
    (start s).Kept s.cb.maxseg.toNat s.sk.sndBuf.seq where
  maxseg := rfl
  filled := by simp [Pipeline.start]
  pending := by
    change s.sk.pendingData = BitVec.ofNat 32 (opsLen s.sk.sendOps)
    rw [idle.queue, idle.pending]
    rfl
  order := by
    refine ⟨[], ?_, idle.posted, rfl, by simp [Pipeline.start, opsLen]⟩
    change [] = [] ++ s.sk.sendOps
    rw [idle.queue, List.append_nil]

/-- An operation joins the queue. -/
theorem Kept.queued (kept : r.Kept segSize first) {op : SendOperation} (filled : op.Filled) :
    ({ r with s := r.s.queueSend op, accepted := r.accepted ++ [op] } : Pipeline).Kept segSize first where
  maxseg := kept.maxseg
  filled := List.forall_mem_append.mpr ⟨kept.filled, List.forall_mem_singleton.mpr filled⟩
  pending := by
    change r.s.sk.pendingData + BitVec.ofNat 32 op.buf.size =
      BitVec.ofNat 32 (opsLen (r.s.sk.sendOps ++ [op]))
    rw [kept.pending, opsLen_append, BitVec.ofNat_add]
    congr 2
  order := by
    obtain ⟨done, accepted, rest⟩ := kept.order
    refine ⟨done, ?_, rest⟩
    change r.accepted ++ [op] = done ++ (r.s.sk.sendOps ++ [op])
    rw [accepted, List.append_assoc]

/-- Operations move from the queue into the buffer. -/
theorem Kept.drained (kept : r.Kept segSize first) {ops : List SendOperation} {t : Endpoint}
    (drains : r.s.Drains ops t) :
    ({ r with
        s := t
        appended := r.appended ++ t.sk.sndBuf.pkts.drop r.s.sk.sndBuf.pkts.length } : Pipeline).Kept
      segSize first where
  maxseg := (congrArg BitVec.toNat drains.maxseg).trans kept.maxseg
  filled := kept.filled
  pending := by
    change t.sk.pendingData = BitVec.ofNat 32 (opsLen t.sk.sendOps)
    rw [drains.pending, kept.pending, drains.queue, opsLen_append, BitVec.ofNat_add]
    bv_omega
  order := by
    obtain ⟨done, accepted, posted, appended, seq⟩ := kept.order
    have moved : ∀ op ∈ ops, op.Filled := fun op member =>
      kept.filled op (by rw [accepted, drains.queue]; simp [member])
    have new : (t.sk.sndBuf.pkts.drop r.s.sk.sndBuf.pkts.length).map UdtPacket.unflagged =
        cut segSize (first + BitVec.ofNat 32 (opsLen done)) ops := by
      rw [List.map_drop, drains.pkts, kept.maxseg, seq]
      exact List.drop_left' (List.length_map _)
    refine ⟨done ++ ops, ?_, ?_, ?_, ?_⟩
    · change r.accepted = done ++ ops ++ t.sk.sendOps
      rw [accepted, drains.queue, List.append_assoc]
    · change sentBytes t.posted = _
      rw [drains.posted, sentBytes_append, posted, sentBytes_done moved, List.map_append]
    · change (r.appended ++ _).map UdtPacket.unflagged = _
      rw [List.map_append, appended, new, cut_append]
    · change t.sk.sndBuf.seq = _
      rw [drains.seq, seq, opsLen_append, BitVec.ofNat_add, BitVec.add_assoc]

/-- A refused operation is completed at once, with no bytes. -/
theorem Kept.posted (kept : r.Kept segSize first) (op : SendOperation) (e : UdtError) :
    ({ r with s := r.s.post (.sent op e 0) } : Pipeline).Kept segSize first where
  maxseg := kept.maxseg
  filled := kept.filled
  pending := kept.pending
  order := by
    obtain ⟨done, accepted, posted, rest⟩ := kept.order
    refine ⟨done, accepted, ?_, rest⟩
    change sentBytes (r.s.posted ++ [.sent op e 0]) = _
    rw [sentBytes_append, posted]
    cases e <;> exact List.append_nil _

theorem Kept.step (kept : r.Kept segSize first) (op : Op) : (r.step op).Kept segSize first := by
  have same : ∀ t : Endpoint, t.sk.sndBuf.pkts = r.s.sk.sndBuf.pkts →
      t.sk.sndBuf.pkts.drop r.s.sk.sndBuf.pkts.length = [] := by
    intro t pkts
    rw [pkts, List.drop_length]
  cases op with
  | send op =>
      by_cases accepts : r.s.Accepts op
      · obtain ⟨ops, drains⟩ := Endpoint.asyncSend_accepted accepts
        have moved := (kept.queued ⟨accepts.2.1, accepts.2.2.1⟩).drained drains
        simp only [Pipeline.step, taken, if_pos accepts]
        exact moved
      · simp only [Pipeline.step, taken, if_neg accepts, entered, next, List.append_nil]
        rcases Endpoint.asyncSend_refused accepts with still | posted
        · rw [still, List.drop_length, List.append_nil]
          exact kept
        · rw [posted, same (r.s.post (.sent op r.s.cb.lastError 0)) rfl, List.append_nil]
          exact kept.posted op r.s.cb.lastError
  | output =>
      obtain ⟨ops, drains⟩ := r.s.output_drains
      simp only [Pipeline.step, taken, List.append_nil]
      exact kept.drained drains
  | writable =>
      obtain ⟨ops, drains⟩ := r.s.onWritable_drains
      simp only [Pipeline.step, taken, List.append_nil]
      exact kept.drained drains
  | remove i =>
      have seq : (r.s.sk.sndBuf.dropAt i).seq = r.s.sk.sndBuf.seq := by
        unfold UdtBuf.dropAt
        split <;> rfl
      obtain ⟨done, accepted, posted, appended, numbers⟩ := kept.order
      simp only [Pipeline.step, taken, entered, List.append_nil]
      exact ⟨kept.maxseg, kept.filled, kept.pending, done, accepted, posted, appended,
        seq.trans numbers⟩

/-- The order and the bytes are right in every state, and the counter is right exactly while
the queue stays below the size of a word. -/
theorem Kept.fifo_iff (kept : r.Kept segSize first) (large : 0 < segSize) :
    r.FirstInFirstOut first ↔ opsLen r.s.sk.sendOps < 2 ^ 32 := by
  have counter : r.s.sk.pendingData.toNat = opsLen r.s.sk.sendOps % 2 ^ 32 := by
    rw [kept.pending, BitVec.toNat_ofNat]
  constructor
  · intro fifo
    have exact_ := fifo.pending
    omega
  · intro small
    obtain ⟨done, accepted, posted, appended, -⟩ := kept.order
    have segments : segSize < 2 ^ 16 := by
      rw [← kept.maxseg]
      exact r.s.cb.maxseg.isLt
    have into := cut_cut large segments first done
    rw [← appended] at into
    have cuts := into.of_unflagged
    refine ⟨⟨done, accepted, posted, cuts.payload_eq⟩, cuts.follow, ?_, ?_, ?_⟩
    · rw [kept.maxseg]
      exact cuts.sizes
    · rw [counter, Nat.mod_eq_of_lt small]
    · exact fun op rest queue refused => Endpoint.consumePendingData_refused queue refused

theorem taken_len (s : Endpoint) (op : Op) :
    opsLen (next s op).sk.sendOps ≤ opsLen s.sk.sendOps + opsLen (taken s op) := by
  have drained : ∀ {s t : Endpoint} {ops}, s.Drains ops t → opsLen t.sk.sendOps ≤ opsLen s.sk.sendOps := by
    intro s t ops drains
    rw [drains.queue, opsLen_append]
    omega
  cases op with
  | send op =>
      by_cases accepts : s.Accepts op
      · obtain ⟨ops, drains⟩ := Endpoint.asyncSend_accepted accepts
        have less := drained drains
        have queued : opsLen (s.queueSend op).sk.sendOps = opsLen s.sk.sendOps + opsLen [op] :=
          opsLen_append _ _
        rw [taken, if_pos accepts, next]
        omega
      · rcases Endpoint.asyncSend_refused accepts with still | posted
        · rw [next, still]
          omega
        · rw [next, posted]
          exact Nat.le_add_right _ _
  | output =>
      obtain ⟨ops, drains⟩ := s.output_drains
      exact (drained drains).trans (Nat.le_add_right _ _)
  | writable =>
      obtain ⟨ops, drains⟩ := s.onWritable_drains
      exact (drained drains).trans (Nat.le_add_right _ _)
  | remove i => exact Nat.le_add_right _ _

theorem kept_run {s : Endpoint} (idle : Idle s) (ops : List Op) :
    (ops.foldl step (start s)).Kept s.cb.maxseg.toNat s.sk.sndBuf.seq := by
  have met : Trace.Meets step (fun _ _ => True) (start s) ops := .trivial_of ops fun _ _ => trivial
  exact met.invariant (Kept.start idle) fun _ op kept _ => kept.step op

/-- The pipeline is first-in first-out and loses nothing, but `pending_data_` is right exactly while
the operations in the queue have less than 2^32 bytes together. -/
theorem send_pipeline_fifo_iff (s : Endpoint) (idle : Idle s) (ops : List Op) :
    ((ops.foldl step (start s)).FirstInFirstOut s.sk.sndBuf.seq ↔
        opsLen (ops.foldl step (start s)).s.sk.sendOps < 2 ^ 32) ∧
      (Trace.Meets step Small (start s) ops →
        (ops.foldl step (start s)).FirstInFirstOut s.sk.sndBuf.seq) := by
  have iff := (kept_run idle ops).fifo_iff idle.maxseg
  refine ⟨iff, fun small => iff.mpr ?_⟩
  have none : opsLen (start s).s.sk.sendOps < 2 ^ 32 := by
    change opsLen s.sk.sendOps < _
    rw [idle.queue]
    decide
  refine small.invariant (I := fun r => opsLen r.s.sk.sendOps < 2 ^ 32) none fun r op _ fits => ?_
  exact (taken_len r.s op).trans_lt fits

theorem init_idle (fack sndSeq rcvSeq : Word) (env : Env) :
    Idle (Endpoint.init fack sndSeq rcvSeq env) where
  queue := rfl
  pending := rfl
  posted := rfl
  maxseg := (by decide : 0 < sMss.toNat)

/-- An operation over a buffer of the user. -/
def sending (data : List UChar) (small : data.length < 2 ^ 32) (handler : Nat) : SendOperation where
  buf := ⟨some data, fun _ same => Option.some.inj same ▸ small⟩
  handler := handler

/-- Two operations go through an endpoint that is not connected yet. -/
theorem send_pipeline_fifo_two :
    ([.send (sending [1, 2] (by decide) 1), .remove 0, .send (sending [3] (by decide) 2),
      .output].foldl step (start (Endpoint.init 0 0 0 Env.zero))).FirstInFirstOut 0 :=
  (send_pipeline_fifo_iff _ (init_idle 0 0 0 Env.zero) _).1.mpr (by decide +kernel)

/-- Behind an operation that does not fit the next one only joins the queue. -/
theorem asyncSend_waits {s : Endpoint} {op front : SendOperation} {rest : List SendOperation}
    (accepts : s.Accepts op) (queue : s.sk.sendOps ++ [op] = front :: rest)
    (refused : s.sk.sndBuf.appendData front.buf.data s.cb.maxseg.toNat = none) :
    s.asyncSend op = s.queueSend op := by
  rw [Endpoint.asyncSend_queued accepts,
    Endpoint.consumePendingData_refused (s := s.queueSend op) queue refused]
  exact if_neg (by simp)

/-- Half a circle of bytes does not fit into the buffer of a fresh socket. -/
theorem opsLen_large {op more : SendOperation} (size : op.buf.size = 2 ^ 31)
    (other : more.buf.size = 2 ^ 31) :
    opsLen ([.send op, .send more].foldl step (start (Endpoint.init 0 0 0 Env.zero))).s.sk.sendOps =
      2 ^ 32 := by
  have there : ∀ {op : SendOperation}, op.buf.size = 2 ^ 31 → op.buf.size ≠ 0 ∧ op.buf.data ≠ none := by
    intro op size
    refine ⟨by omega, fun null => ?_⟩
    have empty : op.buf.size = 0 := by rw [ConstBuffer.size, null]; rfl
    omega
  have full : (UdtBuf.init 0).appendData op.buf.data sMss.toNat = none := by
    have large : (UdtBuf.init 0).acc.toNat < op.buf.size := by
      rw [size]
      decide
    rcases data : op.buf.data with _ | bytes
    · rfl
    · rw [ConstBuffer.size, data] at large
      rw [UdtBuf.appendData, if_pos (.inl large)]
  have opened : (Endpoint.init 0 0 0 Env.zero).Accepts op :=
    ⟨rfl, (there size).1, (there size).2, rfl⟩
  have first : (Endpoint.init 0 0 0 Env.zero).asyncSend op =
      (Endpoint.init 0 0 0 Env.zero).queueSend op := asyncSend_waits opened rfl full
  have again : ((Endpoint.init 0 0 0 Env.zero).queueSend op).Accepts more :=
    ⟨rfl, (there other).1, (there other).2, rfl⟩
  have second : ((Endpoint.init 0 0 0 Env.zero).queueSend op).asyncSend more =
      ((Endpoint.init 0 0 0 Env.zero).queueSend op).queueSend more := asyncSend_waits again rfl full
  change opsLen (((Endpoint.init 0 0 0 Env.zero).asyncSend op).asyncSend more).sk.sendOps = _
  rw [first, second]
  change opsLen [op, more] = _
  rw [opsLen_cons, opsLen_cons, size, other]
  rfl

theorem sending_size (data : List UChar) (small : data.length < 2 ^ 32) (handler : Nat) :
    (sending data small handler).buf.size = data.length := rfl

theorem half_lt : (List.replicate (2 ^ 31) (0 : UChar)).length < 2 ^ 32 := by
  rw [List.length_replicate]
  exact Nat.pow_lt_pow_right (by decide) (by decide)

/-- Two operations of 2^31 bytes wait in the queue, and `pending_data_` is back at zero. -/
theorem pending_data_wraps :
    ¬ ([.send (sending (List.replicate (2 ^ 31) 0) half_lt 1),
        .send (sending (List.replicate (2 ^ 31) 0) half_lt 2)].foldl step
      (start (Endpoint.init 0 0 0 Env.zero))).FirstInFirstOut 0 := by
  have size : ∀ handler, (sending (List.replicate (2 ^ 31) 0) half_lt handler).buf.size = 2 ^ 31 := by
    intro handler
    rw [sending_size, List.length_replicate]
  have length := opsLen_large (size 1) (size 2)
  intro fifo
  have small := (send_pipeline_fifo_iff _ (init_idle 0 0 0 Env.zero) _).1.mp fifo
  rw [length] at small
  omega

end Pipeline

end UdtBoost
