import UdtBoost.SendPipeline
import UdtBoost.Handlers

/-! The queue of send operations and the count of stored bytes, apart from the rest of an endpoint.
As long as the user does not cancel, close or move the limit, and the connection does not end, what
leaves the queue was at its front and completes. -/
namespace UdtBoost

open UdtBuf (opsLen)

/-- The queue, the operations that left it for `snd_buf`, and how much `snd_buf` holds. -/
structure Stock where
  ops : List SendOperation
  done : List SendOperation
  pending : Word
  maxseg : Half
  hiwat : Word
  cc : Word
  total : Nat
  ends : Nat

namespace Stock

inductive Step (v : Stock) : Tag → Stock → Prop
  | same {a} : Step v a v
  | ended {a} : Step v a { v with ends := v.ends + 1 }
  | segment {a} : Step v a { v with maxseg := sMss }
  | drop {a n} (some_ : n ≤ v.total) :
      Step v a { v with cc := v.cc - BitVec.ofNat 32 n, total := v.total - n }
  | consume {a taken rest} (queue : v.ops = taken ++ rest)
      (fits : v.cc ≤ v.hiwat → v.cc.toNat + opsLen taken ≤ v.hiwat.toNat) :
      Step v a { v with
        ops := rest, done := v.done ++ taken, pending := v.pending - BitVec.ofNat 32 (opsLen taken)
        cc := v.cc + BitVec.ofNat 32 (opsLen taken), total := v.total + opsLen taken }
  | queue {op} (filled : op.Filled) : Step v (.send op) { v with
      ops := v.ops ++ [op], pending := v.pending + BitVec.ofNat 32 op.buf.size }
  | cancel : Step v .cancel { v with ops := [], pending := 0 }
  | limit {hiwat} : Step v .limit { v with hiwat }
  | clear : Step v .close { v with cc := 0, total := 0 }

abbrev Path (a : Tag) : Stock → Stock → Prop := Trace.Path Step fun _ b => b = a

/-- The counters are those of the lists. -/
structure Sound (v : Stock) : Prop where
  maxseg : v.maxseg = sMss
  filled : ∀ op ∈ v.ops, op.Filled
  cc : v.cc = BitVec.ofNat 32 v.total
  pending : v.pending = BitVec.ofNat 32 (opsLen v.ops)

variable {v w x : Stock} {a : Tag}

theorem Step.path (step : Step v a w) : Path a v w := .single rfl step

theorem Step.sound (step : Step v a w) (sound : v.Sound) : w.Sound := by
  cases step with
  | same => exact sound
  | ended => exact { sound with }
  | segment => exact ⟨rfl, sound.filled, sound.cc, sound.pending⟩
  | @drop _ n some_ =>
      refine ⟨sound.maxseg, sound.filled, ?_, sound.pending⟩
      have split : v.total = v.total - n + n := by omega
      dsimp only
      rw [sound.cc, split, BitVec.ofNat_add]
      simp
  | consume queue fits =>
      refine ⟨sound.maxseg, ?_, ?_, ?_⟩
      · intro op member
        exact sound.filled op (by rw [queue]; exact List.mem_append_right _ member)
      · dsimp only
        rw [sound.cc, BitVec.ofNat_add]
      · dsimp only
        rw [sound.pending, queue, opsLen_append, BitVec.ofNat_add]
        bv_omega
  | @queue op filled =>
      refine ⟨sound.maxseg, ?_, sound.cc, ?_⟩
      · exact List.forall_mem_append.mpr ⟨sound.filled, List.forall_mem_singleton.mpr filled⟩
      · dsimp only
        rw [sound.pending, opsLen_append, BitVec.ofNat_add]
        simp [opsLen]
  | cancel => exact ⟨sound.maxseg, by simp, sound.cc, rfl⟩
  | limit => exact { sound with }
  | clear => exact ⟨sound.maxseg, sound.filled, rfl, sound.pending⟩

theorem Path.sound (path : Path a v w) (sound : v.Sound) : w.Sound :=
  path.invariant sound fun _ _ _ sound _ step => step.sound sound

/-- The operations `new` came to the queue, and `taken` left its front for the buffer. -/
structure Serves (v : Stock) (new taken : List SendOperation) (w : Stock) : Prop where
  queue : v.ops ++ new = taken ++ w.ops
  done : w.done = v.done ++ taken
  hiwat : w.hiwat = v.hiwat
  room : v.total ≤ v.hiwat.toNat →
    w.total ≤ v.hiwat.toNat ∧ ∀ op ∈ taken, op.buf.size ≤ v.hiwat.toNat
  less : taken = [] → w.total ≤ v.total

theorem Serves.refl (v : Stock) : v.Serves [] [] v where
  queue := List.append_nil _
  done := (List.append_nil _).symm
  hiwat := rfl
  room fits := ⟨fits, by simp⟩
  less _ := Nat.le_refl _

theorem Serves.trans {new more taken others : List SendOperation} (first : v.Serves new taken w)
    (second : w.Serves more others x) : v.Serves (new ++ more) (taken ++ others) x where
  queue := by rw [← List.append_assoc, first.queue, List.append_assoc, second.queue, List.append_assoc]
  done := by rw [second.done, first.done, List.append_assoc]
  hiwat := second.hiwat.trans first.hiwat
  room fits := by
    obtain ⟨inside, short⟩ := first.room fits
    rw [← first.hiwat] at inside
    obtain ⟨still, later⟩ := second.room inside
    rw [first.hiwat] at still later
    exact ⟨still, List.forall_mem_append.mpr ⟨short, later⟩⟩
  less none := by
    obtain ⟨none, none'⟩ := List.append_eq_nil_iff.mp none
    exact (second.less none').trans (first.less none)

/-- Without a connection's end in between, what left the queue completed; only a request of the user
adds to it. -/
def Lasts (sends : Prop) (v w : Stock) : Prop :=
  v.ends ≤ w.ends ∧
    (w.ends = v.ends → ∃ new taken, v.Serves new taken w ∧ (new ≠ [] → sends))

theorem Lasts.refl (sends : Prop) (v : Stock) : v.Lasts sends v :=
  ⟨Nat.le_refl _, fun _ => ⟨[], [], .refl v, by simp⟩⟩

theorem Lasts.trans {sends : Prop} (first : v.Lasts sends w) (second : w.Lasts sends x) :
    v.Lasts sends x := by
  refine ⟨first.1.trans second.1, fun same => ?_⟩
  have early := first.1
  have late := second.1
  obtain ⟨new, taken, serves, only⟩ := first.2 (by omega)
  obtain ⟨more, others, serves', only'⟩ := second.2 (by omega)
  refine ⟨new ++ more, taken ++ others, serves.trans serves', fun some_ => ?_⟩
  by_cases none : new = []
  · exact only' fun none' => some_ (by rw [none, none', List.append_nil])
  · exact only none

theorem Lasts.grows {sends : Prop} (lasts : v.Lasts sends w) (ends : w.ends ≤ v.ends) :
    v.done.length ≤ w.done.length := by
  obtain ⟨new, taken, serves, _⟩ := lasts.2 (Nat.le_antisymm ends lasts.1)
  rw [serves.done, List.length_append]
  exact Nat.le_add_right _ _

/-- Where nothing completes, the queue only grows and no more is stored. -/
theorem Lasts.still {sends : Prop} (lasts : v.Lasts sends w) (ends : w.ends ≤ v.ends)
    (done : w.done.length ≤ v.done.length) :
    (∃ new, w.ops = v.ops ++ new) ∧ w.hiwat = v.hiwat ∧ w.total ≤ v.total ∧ w.done = v.done := by
  obtain ⟨new, taken, serves, _⟩ := lasts.2 (Nat.le_antisymm ends lasts.1)
  have none : taken = [] := by
    rw [serves.done, List.length_append] at done
    exact List.eq_nil_of_length_eq_zero (by omega)
  subst none
  exact ⟨⟨new, serves.queue.symm⟩, serves.hiwat, serves.less rfl, by rw [serves.done, List.append_nil]⟩

/-- Everything but cancelling, closing and moving the limit. -/
def Calm (a : Tag) : Prop := a ≠ .cancel ∧ a ≠ .limit ∧ a ≠ .close

theorem Step.lasts {sends : Prop} (step : Step v a w) (sound : v.Sound) (calm : Calm a)
    (only : ∀ op, a = .send op → sends) : v.Lasts sends w := by
  cases step with
  | same => exact .refl sends v
  | ended => exact ⟨Nat.le_succ _, fun same => absurd same (Nat.succ_ne_self _)⟩
  | segment =>
      refine ⟨Nat.le_refl _, fun _ => ⟨[], [], ?_, by simp⟩⟩
      exact ⟨List.append_nil _, (List.append_nil _).symm, rfl, fun fits => ⟨fits, by simp⟩,
        fun _ => Nat.le_refl _⟩
  | @drop _ n some_ =>
      refine ⟨Nat.le_refl _, fun _ => ⟨[], [], ?_, by simp⟩⟩
      exact ⟨List.append_nil _, (List.append_nil _).symm, rfl,
        fun fits => ⟨(Nat.sub_le _ _).trans fits, by simp⟩, fun _ => Nat.sub_le _ _⟩
  | @consume _ taken rest queue fits =>
      refine ⟨Nat.le_refl _, fun _ => ⟨[], taken, ?_, by simp⟩⟩
      refine ⟨(List.append_nil _).trans queue, rfl, rfl, fun inside => ?_, ?_⟩
      · have count : v.cc.toNat = v.total := by
          rw [sound.cc, BitVec.toNat_ofNat]
          exact Nat.mod_eq_of_lt (inside.trans_lt v.hiwat.isLt)
        have room := fits (by rw [BitVec.le_def, count]; exact inside)
        rw [count] at room
        refine ⟨room, fun op member => ?_⟩
        have part : op.buf.size ≤ opsLen taken :=
          List.le_sum_of_mem (List.mem_map_of_mem member)
        omega
      · rintro rfl
        simp [opsLen]
  | @queue op filled =>
      refine ⟨Nat.le_refl _, fun _ => ⟨[op], [], ?_, fun _ => only op rfl⟩⟩
      exact ⟨rfl, (List.append_nil _).symm, rfl, fun fits => ⟨fits, by simp⟩,
        fun _ => Nat.le_refl _⟩
  | cancel => exact absurd rfl calm.1
  | limit => exact absurd rfl calm.2.1
  | clear => exact absurd rfl calm.2.2

theorem Path.lasts {sends : Prop} (path : Path a v w) (sound : v.Sound) (calm : Calm a)
    (only : ∀ op, a = .send op → sends) : v.Lasts sends w := by
  refine (path.invariant (I := fun w => w.Sound ∧ v.Lasts sends w) ⟨sound, .refl sends v⟩ ?_).2
  rintro w _ x ⟨sound, lasts⟩ rfl step
  exact ⟨step.sound sound, lasts.trans (step.lasts sound calm only)⟩

end Stock

theorem flatMap_bytes_length (ops : List SendOperation) :
    (ops.flatMap SendOperation.bytes).length = opsLen ops := by
  induction ops with
  | nil => rfl
  | cons op ops ih =>
      rw [List.flatMap_cons, List.length_append, ih, opsLen_cons]
      rfl

/-- What goes into a buffer fits into it. -/
theorem UdtBuf.appendOps_room {segSize : Nat} {ops : List SendOperation} {b b' : UdtBuf}
    (below : b.cc ≤ b.hiwat) (appended : b.appendOps segSize ops = some b') :
    b.cc.toNat + opsLen ops ≤ b.hiwat.toNat := by
  induction ops generalizing b with
  | nil => exact below
  | cons op ops ih =>
      rw [UdtBuf.appendOps, Option.bind_eq_some_iff] at appended
      obtain ⟨c, first, rest⟩ := appended
      have alone : b.appendOps segSize [op] = some c := by
        rw [UdtBuf.appendOps, first]
        rfl
      obtain ⟨_, _, cc, hiwat⟩ := UdtBuf.appendOps_cut alone
      have guarded : b.Respects (.appendData op.buf.data segSize) :=
        (UdtBuf.respects_appendData_iff _ _).mpr (.inl below)
      rw [UdtBuf.Respects, first] at guarded
      obtain ⟨inside, still⟩ := guarded
      have later := ih still rest
      have small := b.hiwat.isLt
      have inside : b.cc.toNat + op.buf.size ≤ b.hiwat.toNat := inside
      have count : c.cc.toNat = b.cc.toNat + op.buf.size := by
        rw [cc, opsLen_cons, BitVec.toNat_add, BitVec.toNat_ofNat]
        simp only [opsLen, List.map_nil, List.sum_nil]
        omega
      rw [count, hiwat] at later
      rw [opsLen_cons]
      omega

namespace Endpoint

variable {s t : Endpoint} {a : Tag}

/-- The send operations that have completed, in order. -/
def completedSends (s : Endpoint) : List SendOperation := (sentBytes s.posted).map Prod.fst

def stock (s : Endpoint) : Stock where
  ops := s.sk.sendOps
  done := s.completedSends
  pending := s.sk.pendingData
  maxseg := s.cb.maxseg
  hiwat := s.sk.sndBuf.hiwat
  cc := s.sk.sndBuf.cc
  total := totalLen s.sk.sndBuf.pkts
  ends := s.disconnects.length

/-- The same packets, marked or not, and completions of other operations. -/
theorem stock_eq (k : t.stock = { s.stock with done := t.completedSends, total := t.stock.total })
    (same : t.sk.sndBuf.pkts.map UdtPacket.unflagged = s.sk.sndBuf.pkts.map UdtPacket.unflagged)
    (others : ∃ more, t.posted = s.posted ++ more ∧ sentBytes more = []) : t.stock = s.stock := by
  obtain ⟨more, posted, none⟩ := others
  have done : t.completedSends = s.completedSends := by
    rw [completedSends, posted, sentBytes_append, none, List.append_nil]
    rfl
  have total : t.stock.total = s.stock.total := totalLen_congr same
  rw [k, done, total]
  rfl

theorem Selects.stock {pkt : Option UdtPacket} (selects : s.Selects pkt t) : t.stock = s.stock := by
  cases selects with
  | nothing => rfl
  | closedWindow => rfl
  | fresh => rfl
  | again queue =>
      refine stock_eq rfl ?_ ⟨[], (List.append_nil _).symm, rfl⟩
      rw [queue, List.map_append, List.map_append, List.map_cons, List.map_cons]
      rfl

theorem ready_stock {u : Endpoint} {pkt : Option UdtPacket} (selects : s.Selects pkt u) :
    (u.ready pkt).stock = s.stock := by
  obtain ⟨tPersist, rxtshift, result⟩ := u.ready_eq pkt
  rw [result]
  exact selects.stock

theorem consumePendingData_stock (sound : s.stock.Sound) :
    Stock.Step s.stock a s.consumePendingData.2.stock := by
  obtain ⟨ops, rest, b, queue, appended, result⟩ := s.consumePendingData_spec
  obtain ⟨pkts, _, cc, hiwat⟩ := UdtBuf.appendOps_cut appended
  have maxseg : s.cb.maxseg = sMss := sound.maxseg
  have large : 0 < s.cb.maxseg.toNat := by
    rw [maxseg]
    decide
  have filled : ∀ op ∈ ops, op.Filled := by
    intro op member
    refine sound.filled op ?_
    change op ∈ s.sk.sendOps
    rw [queue]
    exact List.mem_append_left _ member
  have new := (cut_cut large s.cb.maxseg.isLt s.sk.sndBuf.seq ops).total
  have total : totalLen b.pkts = totalLen s.sk.sndBuf.pkts + opsLen ops := by
    rw [pkts, totalLen_append, new, flatMap_bytes_length]
  have done : (sentBytes (s.posted ++ ops.map fun op => .sent op .succeed op.buf.size)).map
      Prod.fst = s.completedSends ++ ops := by
    rw [sentBytes_append, sentBytes_done filled, List.map_append, List.map_map]
    simp [completedSends, Function.comp_def]
  have step : Stock.Step s.stock a _ :=
    .consume queue fun below => UdtBuf.appendOps_room below appended
  rw [result]
  convert step using 1
  simp only [stock, completedSends] at done ⊢
  rw [done, total, cc, hiwat]
  rfl

theorem Output.stock (block : Output s t) (sound : s.stock.Sound) :
    Stock.Step s.stock a t.stock := by
  have same : ∀ {u : Endpoint}, u.stock = s.stock → Stock.Step s.stock a u.stock := by
    intro u eq
    rw [eq]
    exact .same
  cases block with
  | idle =>
      refine same ?_
      unfold outputIdle UdtCb.slowStart
      split
      · split <;> rfl
      · rfl
  | consume => exact consumePendingData_stock sound
  | @send u canSend raw pkt env t alive select must before dgram =>
      refine same (Eq.trans ?_ (ready_stock (outputSelect_selects select)))
      obtain ⟨_, _, _, _, _, _, _, result⟩ := transmit_eq { u.ready pkt with env } pkt raw t
      rw [result]
      rfl
  | @persist u canSend pkt select can quiet =>
      refine same (Eq.trans ?_ (ready_stock (outputSelect_selects select)))
      obtain ⟨tPersist, shift, result⟩ := enterPersist_eq { u.ready pkt with cb.rxtshift := 0 }
      rw [result]
      rfl
  | wait select quiet => exact same (ready_stock (outputSelect_selects select))
  | record => exact .same

theorem output_stock (sound : s.stock.Sound) : Stock.Path a s.stock s.output.stock := by
  refine (s.output_blocks.keeps
    (I := fun t => t.stock.Sound ∧ Stock.Path a s.stock t.stock) ⟨sound, .refl _⟩ ?_).2
  rintro t u ⟨sound, path⟩ block
  exact ⟨(block.stock (a := a) sound).sound sound, path.trans (block.stock sound).path⟩

/-- What a packet's drop takes out of the buffer. -/
theorem drop_stock {gone left : List UdtPacket} {x : Endpoint}
    (split : totalLen s.sk.sndBuf.pkts = totalLen gone + totalLen left)
    (k : x.stock = { s.stock with
      cc := s.sk.sndBuf.cc - BitVec.ofNat 32 (totalLen gone), total := totalLen left }) :
    Stock.Step s.stock a x.stock := by
  have inside : totalLen gone ≤ s.stock.total := by
    change _ ≤ totalLen s.sk.sndBuf.pkts
    omega
  have rest : totalLen left = s.stock.total - totalLen gone := by
    change _ = totalLen s.sk.sndBuf.pkts - _
    omega
  rw [k, rest]
  exact .drop inside

theorem sentBytes_received (done : List (RecvOperation × List UChar)) (e : UdtError) :
    sentBytes (done.map fun d => .received d.1 e d.2) = [] := by
  induction done with
  | nil => rfl
  | cons d done ih => exact ih

theorem sentBytes_handlers (k : UdtSocket) (e : UdtError) : sentBytes (k.handlers e) = [] := by
  unfold UdtSocket.handlers
  rcases k.connectHandler with _ | h <;> rcases k.acceptHandler with _ | h' <;>
    rcases k.shutdownHandler with _ | h'' <;> rfl

theorem sentBytes_disconnected (ops : List SendOperation) :
    sentBytes (ops.map (Completion.sent · .disconnected 0)) = [] := by
  induction ops with
  | nil => rfl
  | cons op ops ih => exact ih

theorem onConnected_posted (s : Endpoint) :
    ∃ more, s.onConnected.posted = s.posted ++ more ∧ sentBytes more = [] := by
  unfold onConnected
  dsimp only
  split
  · rcases s.sk.connectHandler with _ | h
    · rcases s.sk.acceptHandler with _ | h
      · exact ⟨[], (List.append_nil _).symm, rfl⟩
      · exact ⟨_, rfl, rfl⟩
    · exact ⟨_, rfl, rfl⟩
  · exact ⟨[], (List.append_nil _).symm, rfl⟩

theorem updateAckState_posted (s : Endpoint) :
    ∃ more, s.updateAckState.posted = s.posted ++ more ∧ sentBytes more = [] := by
  have kept : ∀ x : Endpoint, x.ackFin.posted = x.posted := by
    intro x
    obtain ⟨_, _, _, _, _, _, result, _⟩ := x.ackFin_eq
    rw [result]
  rw [updateAckState, kept]
  unfold ackHandshake
  split
  · exact ⟨[], (List.append_nil _).symm, rfl⟩
  · obtain ⟨_, _, _, _, _, _, timed⟩ :=
      ({ s with cb.state := .established } : Endpoint).timeHandshake_eq
    rw [timed]
    exact onConnected_posted _
  · exact ⟨[], (List.append_nil _).symm, rfl⟩

/-- Every block of an endpoint is a step of its queue, or several. -/
theorem block_stock (block : Block s a t) (whole : a ≠ .disconnect) (sound : s.stock.Sound) :
    Stock.Path a s.stock t.stock := by
  have same : ∀ {u : Endpoint}, u.stock = s.stock → Stock.Path a s.stock u.stock := by
    intro u eq
    rw [eq]
    exact .refl _
  cases block with
  | output block => exact (block.stock sound).path
  | read =>
      obtain ⟨done, rest, rb, waits, _, _, result⟩ := s.recvDataLoop_spec s.sk.recvOps
      rw [result]
      exact same (stock_eq rfl rfl ⟨_, rfl, sentBytes_received _ _⟩)
  | @delayed n =>
      obtain ⟨done, rest, rb, _, result⟩ :=
        ({ s with sk.delayWaits := n } : Endpoint).delayedLoop_spec s.sk.recvOps
      rw [result]
      exact same (stock_eq rfl rfl ⟨_, rfl, sentBytes_received _ _⟩)
  | notifySends =>
      rw [notifySends_eq]
      exact same (stock_eq rfl rfl ⟨_, rfl, sentBytes_disconnected _⟩)
  | notifyHandlers =>
      rw [postHandlers_eq]
      exact same (stock_eq rfl rfl ⟨_, rfl, sentBytes_handlers _ _⟩)
  | notified =>
      have step : Stock.Step s.stock .post _ := .ended
      convert step.path using 1
      simp [stock, completedSends]
  | cancel => exact Stock.Step.cancel.path
  | disconnect => exact absurd rfl whole
  | sampled =>
      unfold updateRtt
      split
      · obtain ⟨srtt, rttvar, rxtcur, result⟩ := s.xmitTimer_eq s.cb.rtt
        rw [result]
        exact same rfl
      · exact .refl _
  | @ackPredicted p =>
      obtain ⟨gone, rest, _, _, _, split, _, _, result⟩ := s.ackPredicted_eq p.hdr.ack
      have left : totalLen s.sk.sndBuf.pkts = totalLen gone + totalLen rest := by
        rw [split, totalLen_append]
      rw [result]
      exact (drop_stock left rfl).path
  | @syn p =>
      obtain ⟨wl1, wl2, tKeep, result⟩ := s.handleSyn_eq p
      rw [result]
      split
      · refine same ?_
        dsimp only
        split <;> rfl
      · exact same rfl
  | @reass p =>
      obtain ⟨_, _, _, _, _, _, result⟩ := s.TCP_REASS_eq p
      rw [result]
      exact same rfl
  | ackAll =>
      have others := s.updateAckState_posted
      obtain ⟨_, _, _, _, _, _, _, _, _, _, _, _, _, _, result⟩ := s.updateAckState_eq
      rw [result] at others ⊢
      refine same (stock_eq ?_ ?_ others)
      · dsimp only [stock]
        split <;> rfl
      · dsimp only
        split <;> rfl
  | fack =>
      unfold UdtCb.updateSndFack
      split <;> exact same rfl
  | @sacked p block front q back queue =>
      unfold dropSndPkt
      have left : totalLen s.sk.sndBuf.pkts = totalLen [q] + totalLen (front ++ back) := by
        rw [queue, totalLen_append, totalLen_append, totalLen_cons, totalLen_cons, totalLen_nil]
        omega
      have cc : s.sk.sndBuf.cc - q.hdr.len.setWidth 32 =
          s.sk.sndBuf.cc - BitVec.ofNat 32 (totalLen [q]) := by
        rw [totalLen_cons, totalLen_nil, Nat.add_zero, BitVec.ofNat_toNat]
      dsimp only
      split <;> exact (drop_stock left (by simp [stock, UdtBuf.drop, completedSends, cc])).path
  | @window p =>
      obtain ⟨_, _, result⟩ := s.ackWindow_eq (p.hdr.win.setWidth 32)
      rw [result]
      exact same rfl
  | late =>
      obtain ⟨_, _, result⟩ := resetRexmtTimer_eq { s.cb with dupacks := 0 }
      rw [result]
      exact same rfl
  | duplicate =>
      obtain ⟨_, _, result⟩ := resetRexmtTimer_eq { s.cb with dupacks := s.cb.dupacks + 1 }
      rw [result]
      exact same rfl
  | @fastRexmt p =>
      obtain ⟨_, _, _, _, _, _, _, _, result, marked⟩ := beginFastRexmt_eq
        { s with cb.dupacks := s.cb.dupacks + 1, cb.rtt := 0 } p.hdr.ack
      have begun : (beginFastRexmt (handlePacketLost
          { s with cb.dupacks := s.cb.dupacks + 1, cb.rtt := 0 }) p.hdr.ack).stock = s.stock := by
        rw [result]
        exact stock_eq rfl marked ⟨[], (List.append_nil _).symm, rfl⟩
      have sent := output_stock (a := .fastRexmt p) (begun ▸ sound)
      rw [begun] at sent
      rw [doFastRexmt]
      exact sent
  | @ackNew p =>
      obtain ⟨gone, rest, _, _, _, _, split, _, _, result⟩ := s.ackNewData_eq p.hdr
      have left : totalLen s.sk.sndBuf.pkts = totalLen gone + totalLen rest := by
        rw [split, totalLen_append]
      rw [result]
      exact (drop_stock left rfl).path
  | fin =>
      obtain ⟨_, _, result⟩ := s.handleFin_eq
      rw [result]
      split <;> exact same rfl
  | receiving =>
      obtain ⟨pkt, next, _, result⟩ := s.doReceive_eq
      rw [result]
      exact same rfl
  | rexmtBegun =>
      obtain ⟨_, _, _, _, _, _, _, _, _, _, result⟩ := s.rexmtBegun_eq
      rw [result]
      exact same (stock_eq rfl (clearFlagsLoop_unflagged _ _) ⟨[], (List.append_nil _).symm, rfl⟩)
  | persistBegun =>
      obtain ⟨_, _, _, _, _, result, marked⟩ := s.persistBegun_eq
      rw [result]
      exact same (stock_eq rfl marked ⟨[], (List.append_nil _).symm, rfl⟩)
  | @connect h =>
      obtain ⟨pkt, next, _, result⟩ := s.connecting_eq h
      rw [result]
      exact same rfl
  | @connectBusy h =>
      obtain ⟨pkt, next, _, result⟩ := ({ s with sk.connectHandler := some h } : Endpoint).doReceive_eq
      rw [result]
      exact same rfl
  | @accept h =>
      obtain ⟨pkt, next, _, result⟩ := ({ s with sk.acceptHandler := some h } : Endpoint).doReceive_eq
      rw [result]
      exact same rfl
  | @acceptBusy h =>
      obtain ⟨pkt, next, _, result⟩ := ({ s with sk.acceptHandler := some h } : Endpoint).doReceive_eq
      rw [result]
      exact same rfl
  | @shutdown h =>
      rw [closing_eq]
      exact same rfl
  | @sendRefused op => exact same (stock_eq rfl rfl ⟨_, rfl, by cases s.cb.lastError <;> rfl⟩)
  | @sendQueued op alive size data => exact (Stock.Step.queue ⟨size, data⟩).path
  | @receiveRefused op => exact same (stock_eq rfl rfl ⟨_, rfl, rfl⟩)
  | mtu => exact Stock.Step.segment.path
  | sndLimit => exact Stock.Step.limit.path
  | close => exact Stock.Step.clear.path
  | _ => exact same rfl

theorem onDisconnected_ends (alive : s.sk.nextLayer = true) :
    s.onDisconnected.disconnects.length = s.disconnects.length + 1 := by
  have log := (inners_accounted (recvData_blocks
    { s with posted := s.posted ++ s.sk.sendOps.map (.sent · .disconnected 0) })).2
  rw [onDisconnected, if_pos alive, notifySends_eq]
  dsimp only
  rw [postHandlers_eq]
  change (_ ++ [_]).length = _
  rw [log]
  exact List.length_append

theorem block_sound (block : Block s a t) (whole : a ≠ .disconnect) (sound : s.stock.Sound) :
    t.stock.Sound :=
  (block_stock block whole sound).sound sound

section Lasts

variable {sends : Prop}

theorem onDisconnected_lasts (s : Endpoint) (sound : s.stock.Sound) :
    s.onDisconnected.stock.Sound ∧ s.stock.Lasts sends s.onDisconnected.stock := by
  have kept : s.onDisconnected.stock.Sound := by
    refine s.onDisconnected_blocks.invariant (I := fun s => s.stock.Sound) sound ?_
    rintro x a y sound (rfl | rfl | rfl) block <;> exact block_sound block (by simp) sound
  refine ⟨kept, ?_⟩
  by_cases alive : s.sk.nextLayer = true
  · have more : s.onDisconnected.stock.ends = s.stock.ends + 1 := onDisconnected_ends alive
    refine ⟨by omega, fun same => ?_⟩
    omega
  · rw [onDisconnected, if_neg alive]
    exact .refl sends s.stock

theorem block_lasts (block : Block s a t) (calm : Stock.Calm a) (only : ∀ op, a = .send op → sends)
    (sound : s.stock.Sound) : t.stock.Sound ∧ s.stock.Lasts sends t.stock := by
  by_cases whole : a = .disconnect
  · subst whole
    cases block with
    | disconnect => exact s.onDisconnected_lasts sound
  · have path := block_stock block whole sound
    exact ⟨path.sound sound, path.lasts sound calm only⟩

theorem path_lasts {C : Endpoint → Tag → Prop} (path : BlockPath C s t)
    (calm : ∀ x a, C x a → Stock.Calm a) (only : ∀ x op, C x (.send op) → sends)
    (sound : s.stock.Sound) : t.stock.Sound ∧ s.stock.Lasts sends t.stock := by
  refine path.invariant (I := fun t => t.stock.Sound ∧ s.stock.Lasts sends t.stock)
    ⟨sound, .refl sends s.stock⟩ ?_
  rintro x a y ⟨sound, lasts⟩ met block
  obtain ⟨sound, more⟩ := block_lasts block (calm x a met)
    (by rintro op rfl; exact only x op met) sound
  exact ⟨sound, lasts.trans more⟩

theorem late_lasts (path : BlockPath Tag.Late s t) (sound : s.stock.Sound) :
    t.stock.Sound ∧ s.stock.Lasts sends t.stock := by
  refine path_lasts path ?_ ?_ sound
  · rintro x a (rfl | rfl | rfl) <;> simp [Stock.Calm]
  · rintro x op (none | none | none) <;> simp at none

theorem phased_lasts {p : UdtPacket} (phased : Phased p s t) (sound : s.stock.Sound) :
    t.stock.Sound ∧ s.stock.Lasts sends t.stock := by
  refine path_lasts phased.path ?_ ?_ sound
  · rintro x a (mild | rfl)
    · cases a <;> simp_all [Tag.Mild, Tag.Early, Stock.Calm]
    · simp [Stock.Calm]
  · rintro x op (mild | none)
    · simp [Tag.Mild, Tag.Early] at mild
    · simp at none

theorem tags_calm {x : Endpoint} {e : Event} {a : Tag} (tags : e.Tags x a)
    (kept : e ≠ .cancel ∧ e ≠ .close ∧ (∀ v, e ≠ .setSndBuf v) ∧ (∀ v, e ≠ .setRcvBuf v) ∧
      ∀ v, e ≠ .receiveError v) : Stock.Calm a ∧ ∀ op, a = .send op → e = .send op := by
  cases e with
  | packet hdr mem n =>
      rcases tags with late | ⟨_, _, _, mild | rfl⟩
      · rcases late with rfl | rfl | rfl <;> simp [Stock.Calm]
      · cases a <;> simp_all [Tag.Mild, Tag.Early, Stock.Calm]
      · simp [Stock.Calm]
  | slowTimo | delayTimer => rcases tags with rfl | rfl | rfl <;> simp [Stock.Calm]
  | connect | fastTimo | send | receive | shutdown =>
      rcases tags with rfl | rfl <;> simp [Stock.Calm]
  | accept | mtu | setKeepalive =>
      obtain rfl : a = _ := tags
      simp [Stock.Calm]
  | cancel | close | setSndBuf | setRcvBuf | receiveError => simp at kept

/-- Every event but a cancel, a close and a new limit. -/
theorem step_lasts {e : Event} (calm : e ≠ .cancel ∧ e ≠ .close ∧ ∀ v, e ≠ .setSndBuf v)
    (sound : s.stock.Sound) :
    (s.step e).stock.Sound ∧ s.stock.Lasts (∃ op, e = .send op) (s.step e).stock := by
  cases e with
  | receiveError value =>
      change (s.handleReceiveError value).stock.Sound ∧
        s.stock.Lasts _ (s.handleReceiveError value).stock
      rw [handleReceiveError_eq]
      split
      · exact onDisconnected_lasts { s with sk.rcvPkt := none } sound
      · exact ⟨sound, .refl _ _⟩
  | setRcvBuf v => exact ⟨sound, .refl _ _⟩
  | cancel | close | setSndBuf => simp at calm
  | _ =>
      refine path_lasts (s.step_blocks _) (fun x a tags => ?_) (fun x op tags => ?_) sound
      · exact (tags_calm tags (by simp)).1
      · exact ⟨op, (tags_calm tags (by simp)).2 op rfl⟩

end Lasts

end Endpoint

end UdtBoost
