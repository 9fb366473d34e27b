import UdtBoost.Peering

/-! No byte of the stream is lost between the two endpoints: what has left `snd_buf` the peer has
received, in order or ahead of it. Segments are whole packets of `snd_buf`, so neither an
acknowledgement nor a SACK block ever names a part of one. -/
namespace UdtBoost

namespace UdtPacket

/-- The byte of that number lies in the packet. -/
abbrev Covers (m : Nat) (q : UdtPacket) : Prop := Extents.Holds (place 0) span m q

theorem place_zero (q : UdtPacket) : q.place 0 = q.hdr.seq.toNat :=
  congrArg BitVec.toNat (BitVec.sub_zero q.hdr.seq)

/-- The packet has the `k`-th byte of the stream, and it is `b`. -/
def Carries (k : Nat) (b : UChar) (q : UdtPacket) : Prop :=
  ∃ i, q.hdr.seq.toNat + i = k + 1 ∧ q.data[i]? = some b

theorem carries_of_covers {stream : List UChar} {q : UdtPacket} {k : Nat} {b : UChar}
    (here : Excerpt.At 1 stream q.hdr.seq q.data) (length : q.data.length = q.hdr.len.toNat)
    (first : 1 ≤ q.place 0) (short : stream.length < 2 ^ 32) (covers : q.Covers (k + 1))
    (byte : stream[k]? = some b) : q.Carries k b := by
  obtain ⟨low, high⟩ := covers
  rw [place_zero] at first low high
  change k + 1 < q.hdr.seq.toNat + q.hdr.len.toNat at high
  refine ⟨k + 1 - q.hdr.seq.toNat, by omega, ?_⟩
  rw [← here.getElem short (by omega), ← byte]
  congr 1
  bv_omega

end UdtPacket

namespace View

variable (u v : View)

def last : Nat := (streamOf v.posted).length

/-- The packet is one of those that the stream was cut into, or is empty. -/
structure Parcel (q : UdtPacket) : Prop where
  first : 1 ≤ q.place 0
  last : q.place 0 + q.span ≤ 1 + v.last
  apart : ∀ r ∈ v.sndBuf.pkts, Extents.Apart (UdtPacket.place 0) UdtPacket.span q r

/-- The packet lay in `snd_buf`, now or when some segment was sent. -/
def Queued (q : UdtPacket) : Prop :=
  q ∈ v.sndBuf.pkts ∨ ∃ d ∈ v.sent, q ∈ d.before.sk.sndBuf.pkts

/-- The number is `m_rcv_nxt`, or was when it was sent. -/
def Acknowledges (a : Word) : Prop :=
  a = u.rcvNxt ∨ ∃ w ∈ u.wire, hasAck w.hdr.flags = true ∧ w.hdr.ntoh.ack = a

/-- The block was one of the queue's when a segment was sent. -/
def Reports (b : PairSeq) : Prop :=
  ∃ d ∈ u.sent, b ∈ UdtOptionSack.blocks d.before.sk.rcvBuf.reasmPkts sackSpace

/-- The byte of that number was received. -/
def Has (m : Nat) : Prop := m < u.rcvNxt.toNat ∨ ∃ r ∈ u.rcvBuf.reasmPkts, r.Covers m

/-- An acknowledgement of the stream by a peer whose `m_rcv_nxt` is `nxt`: it names no packet in part,
and nothing that was not received. -/
structure Acknowledged (nxt a : Word) : Prop where
  received : a.toNat ≤ nxt.toNat
  inside : a.toNat ≤ 1 + v.last ∨ v.outgoing.Over
  cut : ∀ r ∈ v.sndBuf.pkts, Extents.Cut (UdtPacket.place 0) UdtPacket.span a.toNat r

end View

/-- The stream that `v` sends to `u` is with one of them. -/
structure Custody (u v : View) : Prop where
  queued : ∀ q, v.Queued q → q.span ≠ 0 → v.Parcel q
  waiting : ∀ r ∈ u.rcvBuf.reasmPkts, v.Parcel r
  acks : ∀ a, u.Acknowledges a → v.Acknowledged u.rcvNxt a
  blocks : ∀ b, u.Reports b → b.1.toNat < 2 ^ 31 ∧ b.2.toNat < 2 ^ 31 ∧
    (u.nextLayer = true → ∀ m, b.1.toNat ≤ m → m < b.2.toNat → u.Has m)
  covered : u.nextLayer = true → v.nextLayer = true → ∀ m, 1 ≤ m → m ≤ v.last →
    u.Has m ∨ ∃ q ∈ v.sndBuf.pkts, q.Covers m

section Blocks

variable {q : List UdtPacket} {b : PairSeq}

theorem blocks_held (low : ∀ p ∈ q, p.place 0 + p.span < 2 ^ 31) {remainLen : Nat}
    (member : b ∈ UdtOptionSack.blocks q remainLen) :
    b.1.toNat < 2 ^ 31 ∧ b.2.toNat < 2 ^ 31 ∧
      ∀ m, b.1.toNat ≤ m → m < b.2.toNat → ∃ r ∈ q, r.Covers m := by
  have half : ∀ p ∈ q, (p.extent 0).2 < 2 ^ 31 := low
  have run : b ∈ Runs.runs (q.map UdtPacket.block) := List.mem_reverse.mp (List.mem_of_mem_take member)
  have place := List.mem_map_of_mem (f := Prod.map (pos 0) (pos 0)) run
  rw [runs_places half] at place
  have whole : ∀ x : Word, pos 0 x = x.toNat := fun x => congrArg BitVec.toNat (BitVec.sub_zero x)
  change (pos 0 b.1, pos 0 b.2) ∈ _ at place
  rw [whole, whole] at place
  obtain ⟨⟨a, first, start⟩, c, second, stop⟩ := Runs.runs_edges place
  obtain ⟨p, inside, rfl⟩ := List.mem_map.mp first
  obtain ⟨p', inside', rfl⟩ := List.mem_map.mp second
  have valid : ∀ a ∈ q.map (UdtPacket.extent 0), a.1 ≤ a.2 := by
    intro a member
    obtain ⟨p, _, rfl⟩ := List.mem_map.mp member
    exact extent_valid 0 p
  refine ⟨?_, ?_, fun m low high => ?_⟩
  · exact (start.trans_le (extent_valid 0 p)).trans_lt (half p inside)
  · exact stop.trans_lt (half p' inside')
  · obtain ⟨e, member, from_, below⟩ := (Runs.covers_runs valid).mp ⟨_, place, low, high⟩
    obtain ⟨r, queued, rfl⟩ := List.mem_map.mp member
    exact ⟨r, queued, from_, below⟩

end Blocks

section Receiving

variable {u v w : View} {a : Act} {q : UdtPacket} {fins : Nat}

theorem Contiguous.received {nxt : Word} {run : List UdtPacket} (follow : Contiguous nxt run)
    (parcels : ∀ r ∈ run, v.Parcel r) (short : 1 + v.last < 2 ^ 32) :
    let stop := (nxt + BitVec.ofNat 32 (totalLen run)).toNat
    nxt.toNat ≤ stop ∧ (∀ r ∈ run, r.place 0 + r.span ≤ stop) ∧
      ∀ q ∈ v.sndBuf.pkts, Extents.Cut (UdtPacket.place 0) UdtPacket.span nxt.toNat q →
        Extents.Cut (UdtPacket.place 0) UdtPacket.span stop q := by
  induction run generalizing nxt with
  | nil =>
      intro stop
      have same : nxt + BitVec.ofNat 32 (totalLen []) = nxt := BitVec.add_zero nxt
      have same : stop = nxt.toNat := congrArg BitVec.toNat same
      rw [same]
      exact ⟨Nat.le_refl _, by simp, fun q _ cut => cut⟩
  | cons r run ih =>
      obtain ⟨here, later⟩ := List.forall_mem_cons.mp parcels
      obtain ⟨seq, rest⟩ := follow
      have place : r.place 0 = nxt.toNat := r.place_zero.trans (congrArg BitVec.toNat seq)
      have inside := here.last
      have next : (nxt + r.hdr.len.setWidth 32).toNat = r.place 0 + r.span := by
        unfold UdtPacket.span at inside ⊢
        rw [place] at inside ⊢
        rw [BitVec.toNat_add, BitVec.toNat_setWidth]
        have small := r.hdr.len.isLt
        omega
      have whole : nxt + BitVec.ofNat 32 (totalLen (r :: run)) =
          nxt + r.hdr.len.setWidth 32 + BitVec.ofNat 32 (totalLen run) := by
        rw [totalLen_cons, BitVec.ofNat_add, ← BitVec.add_assoc]
        congr 2
        bv_omega
      obtain ⟨mono, stops, cuts⟩ := ih rest later
      rw [next] at mono cuts
      intro stop
      have same : stop = _ := congrArg BitVec.toNat whole
      rw [same]
      refine ⟨(by omega : nxt.toNat ≤ r.place 0 + r.span).trans mono,
        List.forall_mem_cons.mpr ⟨mono, stops⟩, fun q member cut => cuts q member ?_⟩
      rw [← place] at cut
      exact cut.next (here.apart q member)

theorem View.Acknowledged.later {x nxt nxt' : Word} (known : v.Acknowledged nxt x)
    (later : nxt.toNat ≤ nxt'.toNat) : v.Acknowledged nxt' x :=
  { known with received := known.received.trans later }

theorem Custody.moved (c : Custody u v) (short : 1 + v.last < 2 ^ 31)
    (has : w.nextLayer = true → u.nextLayer = true ∧ ∀ m, u.Has m → w.Has m)
    (waiting : ∀ r ∈ w.rcvBuf.reasmPkts, v.Parcel r) (nxt : v.Acknowledged w.rcvNxt w.rcvNxt)
    (later : u.rcvNxt.toNat ≤ w.rcvNxt.toNat)
    (wire : ∀ x ∈ w.wire, x ∈ u.wire ∨ hasAck x.hdr.flags = false ∨ x.hdr.ntoh.ack = u.rcvNxt)
    (sent : ∀ d ∈ w.sent, d ∈ u.sent ∨ d.before.sk.rcvBuf.reasmPkts = u.rcvBuf.reasmPkts) :
    Custody w v where
  queued := c.queued
  waiting := waiting
  acks x said := by
    rcases said with rfl | ⟨d, member, isAck, rfl⟩
    · exact nxt
    rcases wire d member with old | noAck | now
    · exact (c.acks _ (.inr ⟨d, old, isAck, rfl⟩)).later later
    · exact absurd (isAck.symm.trans noAck) (by decide)
    · rw [now]
      exact (c.acks _ (.inl rfl)).later later
  blocks b reported := by
    obtain ⟨d, member, block⟩ := reported
    rcases sent d member with old | now
    · obtain ⟨first, second, held⟩ := c.blocks b ⟨d, old, block⟩
      refine ⟨first, second, fun alive m low high => ?_⟩
      obtain ⟨before, has⟩ := has alive
      exact has m (held before m low high)
    · rw [now] at block
      have low : ∀ r ∈ u.rcvBuf.reasmPkts, r.place 0 + r.span < 2 ^ 31 := fun r queued =>
        (c.waiting r queued).last.trans_lt short
      obtain ⟨first, second, held⟩ := blocks_held low block
      refine ⟨first, second, fun alive m low high => ?_⟩
      exact (has alive).2 m (.inr (held m low high))
  covered alive there m first last := by
    obtain ⟨before, has⟩ := has alive
    exact (c.covered before there m first last).imp_left (has m)

/-- What a packet is taken in for is part of the stream. -/
def Receives (v : View) : Act → Prop
  | .store q => v.Parcel q
  | .syn q => q.hdr.seq = 0
  | _ => True

/-- The receiver takes a step. Its FIN is counted behind the stream. -/
theorem Step.receives (step : Step u a w) (c : Custody u v) (legal : Receives v a)
    (short : 1 + v.last < 2 ^ 31) (later : u.rcvNxt.toNat ≤ w.rcvNxt.toNat)
    (inside : w.rcvNxt ≠ u.rcvNxt → w.rcvNxt.toNat ≤ 1 + v.last ∨ v.outgoing.Over)
    (fin : a = .fin → w.rcvNxt ≠ u.rcvNxt → 1 + v.last ≤ w.rcvNxt.toNat) : Custody w v := by
  have now := c.acks u.rcvNxt (.inl rfl)
  have parcels : ∀ r ∈ v.sndBuf.pkts, r.span ≠ 0 → v.Parcel r := fun r member => c.queued r (.inl member)
  have old : ∀ x ∈ u.wire, x ∈ u.wire ∨ hasAck x.hdr.flags = false ∨ x.hdr.ntoh.ack = u.rcvNxt :=
    fun x member => .inl member
  have same : ∀ d ∈ u.sent, d ∈ u.sent ∨ d.before.sk.rcvBuf.reasmPkts = u.rcvBuf.reasmPkts :=
    fun d member => .inl member
  have nxt : (∀ r ∈ v.sndBuf.pkts, Extents.Cut (UdtPacket.place 0) UdtPacket.span w.rcvNxt.toNat r) →
      v.Acknowledged w.rcvNxt w.rcvNxt := by
    intro cut
    refine ⟨Nat.le_refl _, ?_, cut⟩
    by_cases still : w.rcvNxt = u.rcvNxt
    · rw [still]
      exact now.inside
    · exact inside still
  cases step with
  | transmit _ _ sends =>
      have moved := sends.moved
      have before := congrArg (fun c : Core => c.rcvBuf.reasmPkts) sends.before
      have ack := sends.ack
      clear sends
      subst moved
      refine c.moved short (fun alive => ⟨alive, fun _ has => has⟩) c.waiting now (Nat.le_refl _) ?_ ?_
      · exact List.forall_mem_append.mpr ⟨old, List.forall_mem_singleton.mpr (.inr (.inr ack))⟩
      · exact List.forall_mem_append.mpr ⟨same, List.forall_mem_singleton.mpr (.inr before)⟩
  | reset =>
      refine c.moved short (fun alive => ⟨alive, fun _ has => has⟩) c.waiting now (Nat.le_refl _) ?_ same
      have noAck : hasAck UdtHdr.TH_RST = false := by decide
      exact List.forall_mem_append.mpr ⟨old, List.forall_mem_singleton.mpr (.inr (.inl noAck))⟩
  | keepalive =>
      refine c.moved short (fun alive => ⟨alive, fun _ has => has⟩) c.waiting now (Nat.le_refl _) ?_ same
      refine List.forall_mem_append.mpr ⟨old, List.forall_mem_singleton.mpr (.inr (.inr ?_))⟩
      rw [UdtHdr.ntoh_hton]
  | @syn q =>
      have one : q.hdr.seq + 1 = 1 := by
        rw [show q.hdr.seq = 0 from legal]
        rfl
      refine c.moved short (fun alive => ⟨alive, fun _ has => has.imp_left later.trans_lt'⟩) c.waiting
        (nxt fun r member => ?_) later old same
      change Extents.Cut _ _ (q.hdr.seq + 1).toNat r
      rw [one]
      by_cases none : r.span = 0
      · exact .inl none
      · exact .inr (.inl (parcels r member none).first)
  | @store q below above run kept queue _ _ split follow _ _ =>
      have before : ∀ r ∈ run ++ kept, v.Parcel r := by
        rw [← split]
        have waits := c.waiting
        rw [queue] at waits
        obtain ⟨low, high⟩ := List.forall_mem_append.mp waits
        exact List.forall_mem_append.mpr ⟨low, List.forall_mem_cons.mpr ⟨legal, high⟩⟩
      obtain ⟨goes, stays⟩ := List.forall_mem_append.mp before
      obtain ⟨_, stops, cuts⟩ := follow.received goes (by omega)
      refine c.moved short (fun alive => ⟨alive, fun m has => ?_⟩) stays
        (nxt fun r member => cuts r member (now.cut r member)) later old same
      rcases has with low | ⟨r, member, covers⟩
      · exact .inl (low.trans_le later)
      have member : r ∈ run ++ kept := by
        rw [← split]
        rw [queue] at member
        exact (List.sublist_cons_self q above).append_left below |>.subset member
      rcases List.mem_append.mp member with gone | left
      · exact .inl (covers.2.trans_le (stops r gone))
      · exact .inr ⟨r, left, covers⟩
  | @rewrite p mem =>
      refine c.moved short (fun alive => ⟨alive, fun m has => ?_⟩) (fun r member => ?_) now
        (Nat.le_refl _) old same
      · refine has.imp_right fun ⟨r, member, covers⟩ => ⟨_, List.mem_map_of_mem member, ?_⟩
        split <;> exact covers
      · obtain ⟨q, before, rfl⟩ := List.mem_map.mp member
        have parcel := c.waiting q before
        split
        · exact ⟨parcel.first, parcel.last, parcel.apart⟩
        · exact parcel
  | @fin =>
      refine c.moved short (fun alive => ⟨alive, fun _ has => has.imp_left later.trans_lt'⟩) c.waiting
        (nxt fun r member => ?_) later old same
      by_cases still : (if u.state.haveRcvdFin then u.rcvNxt else u.rcvNxt + 1) = u.rcvNxt
      · change Extents.Cut _ _ (if u.state.haveRcvdFin then u.rcvNxt else u.rcvNxt + 1).toNat r
        rw [still]
        exact now.cut r member
      by_cases none : r.span = 0
      · exact .inl none
      · exact .inr (.inr ((parcels r member none).last.trans (fin rfl still)))
  | close =>
      refine c.moved short (fun alive => absurd alive (by simp)) (fun r member => ?_) now
        (Nat.le_refl _) old same
      exact absurd member List.not_mem_nil
  | _ =>
      exact c.moved short (fun alive => ⟨alive, fun _ has => has⟩) c.waiting now (Nat.le_refl _) old same

end Receiving

section Sending

variable {u v w : View} {a : Act} {q : UdtPacket}

theorem View.Parcel.fewer (parcel : v.Parcel q) (sub : w.sndBuf.pkts ⊆ v.sndBuf.pkts)
    (longer : v.last ≤ w.last) : w.Parcel q where
  first := parcel.first
  last := parcel.last.trans (Nat.add_le_add_left longer 1)
  apart r member := parcel.apart r (sub member)

theorem View.Acknowledged.fewer {nxt x : Word} (known : v.Acknowledged nxt x)
    (sub : w.sndBuf.pkts ⊆ v.sndBuf.pkts) (longer : v.last ≤ w.last)
    (over_ : v.outgoing.Over → w.outgoing.Over) : w.Acknowledged nxt x where
  received := known.received
  inside := known.inside.imp (fun below => below.trans (Nat.add_le_add_left longer 1)) over_
  cut r member := known.cut r (sub member)

theorem View.Parcel.alike {r : UdtPacket} (parcel : v.Parcel q) (place : r.place 0 = q.place 0)
    (span : r.span = q.span) : v.Parcel r := by
  refine ⟨place ▸ parcel.first, place ▸ span ▸ parcel.last, fun x inside => ?_⟩
  have apart := parcel.apart x inside
  unfold Extents.Apart at apart ⊢
  rwa [place, span]

theorem Custody.fewer (c : Custody u v) (sub : w.sndBuf.pkts ⊆ v.sndBuf.pkts) (same : w.last = v.last)
    (over_ : v.outgoing.Over → w.outgoing.Over)
    (queued : ∀ q, w.Queued q → ∃ r, v.Queued r ∧ r.place 0 = q.place 0 ∧ r.span = q.span)
    (covered : u.nextLayer = true → w.nextLayer = true → v.nextLayer = true ∧ ∀ m, 1 ≤ m →
      ∀ q ∈ v.sndBuf.pkts, q.Covers m → u.Has m ∨ ∃ q ∈ w.sndBuf.pkts, q.Covers m) :
    Custody u w where
  queued q member some_ := by
    obtain ⟨r, before, place, span⟩ := queued q member
    exact ((c.queued r before (span ▸ some_)).fewer sub same.ge).alike place.symm span.symm
  waiting r member := (c.waiting r member).fewer sub same.ge
  acks x said := (c.acks x said).fewer sub same.ge over_
  blocks := c.blocks
  covered alive there m first last := by
    obtain ⟨before, covered⟩ := covered alive there
    rw [same] at last
    rcases c.covered alive before m first last with has | ⟨q, member, holds⟩
    · exact .inl has
    · exact covered m first q member holds

theorem Feeding.fresh (f : Feeding 1 v.outgoing) {ops rest : List SendOperation} {b : UdtBuf}
    {segSize : Nat} (queue : v.sendOps = ops ++ rest) (small : segSize < 2 ^ 16)
    (appended : v.sndBuf.appendOps segSize ops = some b)
    (short : 1 + (v.last + UdtBuf.opsLen ops) < 2 ^ 31) : ∃ new, b.pkts = v.sndBuf.pkts ++ new ∧
      Packed 0 (1 + v.last) (1 + (v.last + UdtBuf.opsLen ops)) new := by
  have grown : UdtBuf.Grown 0 v.sndBuf b (UdtBuf.opsLen ops) :=
    UdtBuf.appendOps_grown small appended
  obtain ⟨new, pkts, _, packed⟩ := grown.new
  cases open_ : v.connected with
  | false =>
      obtain ⟨_, _, _, none, _⟩ := f.idle open_
      obtain ⟨rfl, -⟩ := List.append_eq_nil_iff.mp (queue.symm.trans none)
      obtain rfl := Option.some.inj appended
      exact ⟨[], by simp, rfl⟩
  | true =>
      have start : (v.sndBuf.seq - 0).toNat = 1 + v.last := by
        have seq : v.sndBuf.seq = 1 + BitVec.ofNat 32 v.last := f.seq open_
        have whole : v.sndBuf.seq - 0 = v.sndBuf.seq := BitVec.sub_zero _
        rw [whole, seq, BitVec.toNat_add, BitVec.toNat_ofNat]
        change (1 + v.last % 2 ^ 32) % 2 ^ 32 = _
        omega
      rw [start, Nat.add_assoc] at packed
      exact ⟨new, pkts, packed (by omega)⟩

theorem Custody.consume (c : Custody u v) {new : List UdtPacket} {n : Nat}
    (pkts : w.sndBuf.pkts = v.sndBuf.pkts ++ new) (packed : Packed 0 (1 + v.last) (1 + (v.last + n)) new)
    (last : w.last = v.last + n) (over_ : v.outgoing.Over → w.outgoing.Over ∧ n = 0)
    (sent : w.sent = v.sent) (alive : w.nextLayer = true → v.nextLayer = true) : Custody u w := by
  have laid := packed.laid
  have longer : v.last ≤ w.last := by omega
  have parcel : ∀ q, v.Parcel q → w.Parcel q := by
    intro q parcel
    refine ⟨parcel.first, parcel.last.trans (Nat.add_le_add_left longer 1), ?_⟩
    rw [pkts]
    refine List.forall_mem_append.mpr ⟨parcel.apart, fun r added => ?_⟩
    exact .inr (.inr (.inr (.inl (parcel.last.trans (laid.mem added).1))))
  have fresh : ∀ q ∈ new, w.Parcel q := by
    intro q added
    obtain ⟨first, _, stop⟩ := laid.mem added
    refine ⟨(Nat.le_add_right 1 _).trans first, last ▸ stop, ?_⟩
    rw [pkts]
    refine List.forall_mem_append.mpr ⟨fun r old => ?_, fun r other => laid.apart added other⟩
    by_cases none : r.span = 0
    · exact .inr (.inl none)
    · have before := (c.queued r (.inl old) none).last
      exact .inr (.inr (.inr (.inr (before.trans first))))
  refine ⟨fun q member some_ => ?_, fun r member => parcel r (c.waiting r member), fun x said => ?_,
    c.blocks, fun here there m first below => ?_⟩
  · rcases member with queued | ⟨d, logged, queued⟩
    · rw [pkts] at queued
      rcases List.mem_append.mp queued with old | added
      · exact parcel q (c.queued q (.inl old) some_)
      · exact fresh q added
    · rw [sent] at logged
      exact parcel q (c.queued q (.inr ⟨d, logged, queued⟩) some_)
  · have known := c.acks x said
    refine ⟨known.received, ?_, ?_⟩
    · exact known.inside.imp (fun below => below.trans (Nat.add_le_add_left longer 1)) fun o => (over_ o).1
    · rw [pkts]
      refine List.forall_mem_append.mpr ⟨known.cut, fun r added => ?_⟩
      obtain ⟨start, some_, stop⟩ := laid.mem added
      rcases known.inside with below | ended
      · exact .inr (.inl (below.trans start))
      · have none := (over_ ended).2
        omega
  · rw [pkts]
    by_cases old : m ≤ v.last
    · refine (c.covered here (alive there) m first old).imp_right fun ⟨q, member, covers⟩ => ?_
      exact ⟨q, List.mem_append_left _ member, covers⟩
    · obtain ⟨q, added, covers⟩ := packed.covers (x := m) (by omega) (by omega)
      exact .inr ⟨q, List.mem_append_right _ added, covers⟩

/-- What the sender acts on was said by the receiver. -/
def Said (u : View) : Act → Prop
  | .ack p => u.Acknowledges p.hdr.ack
  | .sack _ block => u.Reports block
  | _ => True

theorem Step.hands (step : Step v a w) (c : Custody u v) (legal : SendsInTime v a) (said : Said u a)
    (f : Feeding 1 v.outgoing) (short : 1 + w.last < 2 ^ 31) : Custody u w := by
  have over_ : v.outgoing.Over → w.outgoing.Over := fun o => (step.over_stays legal o).1
  have parcels : ∀ r ∈ v.sndBuf.pkts, r.span ≠ 0 → v.Parcel r := fun r member => c.queued r (.inl member)
  have here : ∀ q, v.Queued q → ∃ r, v.Queued r ∧ r.place 0 = q.place 0 ∧ r.span = q.span :=
    fun q queued => ⟨q, queued, rfl, rfl⟩
  -- packets that leave the queue, while the stream stays what it is
  have leave : w.last = v.last → w.sent = v.sent → w.sndBuf.pkts ⊆ v.sndBuf.pkts →
      (u.nextLayer = true → w.nextLayer = true → v.nextLayer = true ∧ ∀ m, 1 ≤ m →
        ∀ q ∈ v.sndBuf.pkts, q.Covers m → u.Has m ∨ ∃ q ∈ w.sndBuf.pkts, q.Covers m) →
      Custody u w := by
    intro last sent sub covered
    refine c.fewer sub last over_ (fun q queued => here q ?_) covered
    rw [View.Queued, sent] at queued
    exact queued.imp_left (@sub q)
  have still : w.last = v.last → w.sent = v.sent → w.sndBuf.pkts = v.sndBuf.pkts →
      w.nextLayer = v.nextLayer → Custody u w := by
    intro last sent pkts alive
    refine leave last sent (by rw [pkts]; exact List.Subset.refl _) fun _ there => ?_
    rw [pkts]
    exact ⟨alive.symm.trans there, fun m _ q member covers => .inr ⟨q, member, covers⟩⟩
  have silent : ∀ {x : List Completion}, (∀ y ∈ x, y.sentBytes = []) →
      (streamOf (v.posted ++ x)).length = v.last := by
    intro x none
    rw [streamOf_append, streamOf_silent none, List.append_nil]
    rfl
  cases step with
  | @consume ops rest b segSize queue small appended =>
      have length : (streamOf (v.posted ++ ops.map fun op => .sent op .succeed op.buf.size)).length =
          v.last + UdtBuf.opsLen ops := by
        rw [streamOf_append, streamOf_done, List.length_append, bytes_length]
        rfl
      have short : 1 + (v.last + UdtBuf.opsLen ops) < 2 ^ 31 := length ▸ short
      obtain ⟨new, pkts, packed⟩ := f.fresh queue small appended short
      refine c.consume pkts packed length (fun ended => ⟨over_ ended, ?_⟩) rfl id
      have none : UdtBuf.opsLen v.sendOps = 0 := ended.2.2
      rw [queue, opsLen_append] at none
      exact (Nat.add_eq_zero_iff.mp none).1
  | @transmit _ _ _ t _ _ sends =>
      have moved := sends.moved
      have before := congrArg (fun c : Core => c.sndBuf.pkts) sends.before
      clear sends
      subst moved
      refine c.fewer (List.Subset.refl _) rfl over_ (fun q queued => ?_) fun _ there =>
        ⟨there, fun m _ q member covers => .inr ⟨q, member, covers⟩⟩
      rcases queued with now | ⟨d, logged, queued⟩
      · exact here q (.inl now)
      rcases List.mem_append.mp logged with old | new
      · exact here q (.inr ⟨d, old, queued⟩)
      · obtain rfl := List.mem_singleton.mp new
        refine ⟨q.unflagged, .inl ?_, rfl, rfl⟩
        have before : d.before.sk.sndBuf.pkts.map UdtPacket.unflagged = v.sndBuf.pkts := before
        rw [← before]
        exact List.mem_map_of_mem queued
  | @ack p dropped rest above _ split below =>
      refine leave rfl rfl ?_ fun alive there => ⟨there, fun m _ q member covers => ?_⟩
      · rw [split]
        exact List.subset_append_right _ _
      rw [split] at member
      rcases List.mem_append.mp member with gone | left
      · have known := c.acks p.hdr.ack said
        have some_ : q.span ≠ 0 := by
          have within := covers.2
          have start := covers.1
          omega
        have inside := c.queued q (.inl (split ▸ List.mem_append_left _ gone)) some_
        have stop : q.place 0 + q.span ≤ p.hdr.ack.toNat := by
          rcases known.cut q (split ▸ List.mem_append_left _ gone) with none | before | behind
          · exact absurd none some_
          · have low := seqLt_iff.mp (below q gone)
            have most : q.place 0 + q.span < 2 ^ 31 := inside.last.trans_lt short
            rw [q.place_zero] at before most
            bv_omega
          · exact behind
        exact .inl (.inl (covers.2.trans_le (stop.trans known.received)))
      · exact .inr ⟨q, left, covers⟩
  | @sack p q block front back split start stop =>
      refine leave rfl rfl ?_ fun alive there => ⟨there, fun m _ r member covers => ?_⟩
      · rw [split]
        exact ((List.sublist_cons_self q back).append_left front).subset
      rw [split] at member
      rcases List.mem_append.mp member with left | right
      · exact .inr ⟨r, List.mem_append_left _ left, covers⟩
      rcases List.mem_cons.mp right with rfl | right
      · obtain ⟨low, high, held⟩ := c.blocks block said
        have some_ : r.span ≠ 0 := by
          have within := covers.2
          have start := covers.1
          omega
        have half : (r.extent 0).2 < 2 ^ 31 :=
          (c.queued r (.inl (split ▸ List.mem_append_right _ List.mem_cons_self)) some_).last.trans_lt short
        have whole : ∀ x : Word, pos 0 x = x.toNat := fun x => congrArg BitVec.toNat (BitVec.sub_zero x)
        have before := (seqLt_iff_extent half ((whole block.1).trans_lt low)).not.mp start
        have behind := (seqLe_iff_extent half ((whole block.2).trans_lt high)).mp stop
        rw [whole] at before behind
        exact .inl (held alive m ((not_lt.mp before).trans covers.1) (covers.2.trans_le behind))
      · exact .inr ⟨r, List.mem_append_right _ right, covers⟩
  | ackAll all quiet =>
      refine still (silent fun x member => (quiet x member).1) rfl ?_ rfl
      dsimp only
      split <;> rfl
  | dispatch | refuseReceive =>
      exact still (silent (x := [_]) (by simp [Completion.sentBytes])) rfl rfl rfl
  | post quiet => exact still (silent (x := [_]) (by simpa using quiet.1)) rfl rfl rfl
  | close =>
      refine leave rfl rfl (fun q member => absurd member List.not_mem_nil) fun _ there => ?_
      exact absurd there (by simp)
  | _ => exact still rfl rfl rfl rfl

end Sending

namespace TcpState

def finAcked (q : TcpState) : Prop := q = finWait2 ∨ q = timeWait

instance (q : TcpState) : Decidable q.finAcked := inferInstanceAs (Decidable (_ ∨ _))

theorem finAcked_finned {q : TcpState} (after : q.finned.finAcked) : q.finAcked := by
  cases q <;> revert after <;> decide

theorem finAcked_acked {q : TcpState} {sentfin : Bool} (after : (q.acked sentfin).finAcked) :
    q.finAcked ∨ sentfin = true ∧ q.isClosing := by
  cases q <;> cases sentfin <;> revert after <;> decide

end TcpState

/-- Only the acknowledgement of everything can be that of the FIN. -/
theorem Step.finAcked {v w : View} {a : Act} (step : Step v a w) (after : w.state.finAcked) :
    v.state.finAcked ∨ ∃ p, a = .ackAll p ∧ v.sentfin = true ∧ v.state.isClosing := by
  have never : ∀ {q : TcpState}, q = .closed ∨ q.inHandshake → ¬ q.finAcked := by
    intro q
    cases q <;> decide
  cases step with
  | transmit _ _ sends =>
      have moved := sends.moved
      subst moved
      exact .inl after
  | @ackAll p => exact (TcpState.finAcked_acked after).imp_right fun shut => ⟨p, rfl, shut⟩
  | fin => exact .inl (TcpState.finAcked_finned after)
  | syn => exact absurd after (never (.inr (.inr (.inr rfl))))
  | closed | close => exact absurd after (never (.inl rfl))
  | connect => exact absurd after (never (.inr (.inr (.inl rfl))))
  | accept => exact absurd after (never (.inr (.inl rfl)))
  | shutdown =>
      refine .inl ?_
      dsimp only at after
      split at after
      · exact absurd after (by decide)
      split at after
      · exact absurd after (by decide)
      · exact after
  | _ => exact .inl after

/-- The peer has counted the FIN behind the stream that `v` sends. -/
def View.FinCounted (u v : View) : Prop := v.outgoing.Over ∧ 1 + v.last < u.rcvNxt.toNat

/-- Each of two endpoints keeps the stream of the other; numbers are short of half of the circle. -/
structure Tied (u : View) (fins : Nat) (v : View) : Prop where
  paired : Paired (streamOf u.posted) u.outgoing.Over fins u.rcvNxt v
  taken : 1 + u.last < 2 ^ 31 → Custody v u
  given : 1 + v.last < 2 ^ 31 → Custody u v
  ended : 1 + v.last < 2 ^ 31 → v.state.finAcked → u.FinCounted v

def Shuts (u v : View) : Act → Prop
  | .ackAll _ => 1 + v.last < 2 ^ 31 → v.sentfin = true → v.state.isClosing → u.FinCounted v
  | _ => True

/-- What a packet's steps need when the peer is in the state `u` and has sent the packet. -/
def Honours (p : UdtPacket) (u v : View) (a : Act) : Prop :=
  Answers p (streamOf u.posted) u.outgoing.Over u.rcvNxt v a ∧
    (1 + u.last < 2 ^ 31 → Receives u a) ∧ Said u a ∧ Shuts u v a

namespace Tied

variable {u v w : View} {a : Act} {p : UdtPacket} {fins : Nat}

theorem toNat_le_of_advances {a b : Word} (later : Advances a b) : a.toNat ≤ b.toNat := by
  by_cases zero : a = 0
  · rw [zero]
    exact Nat.zero_le _
  · obtain ⟨_, some_, order⟩ := later zero
    bv_omega

theorem counted {stream : List UChar} {ended : Prop} {x : Incoming} (d : Drawing stream ended fins x)
    (alive : x.nextLayer = true) : x.rcvNxt.toNat ≤ 1 + stream.length ∨ ended := by
  have length := d.taken.length_le
  by_contra neither
  obtain ⟨far, open_⟩ := not_or.mp neither
  rcases d.below_taken alive (not_le.mp far) with low | ⟨over_, _⟩
  · omega
  · exact open_ over_

/-- Only a packet moves `m_rcv_nxt`, and it comes to a socket that is open. -/
theorem alive_of_moved {stream : List UChar} {ended : Prop} (step : Step v a w)
    (legal : Draws p stream ended v a) (moved : w.rcvNxt ≠ v.rcvNxt) : w.nextLayer = true := by
  cases step with
  | transmit _ _ sends =>
      have same := sends.moved
      subst same
      exact absurd rfl moved
  | syn | store => exact legal.1
  | fin => exact absurd legal not_false
  | _ => exact absurd rfl moved

theorem finCounted (k : Tied u fins v) (step : Step v a w) (legal : SendsInTime v a)
    (shuts : Shuts u v a) (short : 1 + w.last < 2 ^ 31) (after : w.state.finAcked) : u.FinCounted w := by
  have before := step.grows.1.length_le
  have shorter : 1 + v.last < 2 ^ 31 := (Nat.add_le_add_left before 1).trans_lt short
  have counted : u.FinCounted v := by
    rcases step.finAcked after with earlier | ⟨p, rfl, sentfin, closing⟩
    · exact k.ended shorter earlier
    · exact shuts shorter sentfin closing
  obtain ⟨over_, same⟩ := step.over_stays legal counted.1
  have last : w.last = v.last := congrArg List.length same
  exact ⟨over_, last ▸ counted.2⟩

theorem step (k : Tied u fins v) (step : Step v a w) (legal : Honours p u v a)
    (holds : v.incoming.Holds p) : Tied u fins w ∧ w.incoming.Holds p ∧ Advances v.rcvNxt w.rcvNxt := by
  obtain ⟨answers, receives, said, shuts⟩ := legal
  obtain ⟨paired, held, later⟩ := k.paired.step step answers holds
  refine ⟨⟨paired, fun short => ?_, fun short => ?_, k.finCounted step answers.2.1 shuts⟩, held, later⟩
  · refine step.receives (k.taken short) (receives short) short (toNat_le_of_advances later) (fun moved => ?_)
      fun fin => ?_
    · exact counted paired.drawing (alive_of_moved step answers.1 moved)
    · subst fin
      exact absurd answers.1 not_false
  · have before := step.grows.1.length_le
    have shorter : 1 + v.last < 2 ^ 31 := (Nat.add_le_add_left before 1).trans_lt short
    exact step.hands (k.given shorter) answers.2.1 said k.paired.feeding short

theorem path (k : Tied u fins v) (holds : v.incoming.Holds p) (path : ViewPath (Honours p u) v w) :
    Tied u fins w ∧ w.incoming.Holds p ∧ Advances v.rcvNxt w.rcvNxt := by
  refine path.invariant (I := fun x => Tied u fins x ∧ x.incoming.Holds p ∧ Advances v.rcvNxt x.rcvNxt)
    ⟨k, holds, Advances.refl _⟩ ?_
  rintro x a y ⟨k, holds, before⟩ legal step
  obtain ⟨k', holds', after⟩ := k.step step legal holds
  exact ⟨k', holds', before.trans after⟩

theorem fewer (k : Tied u fins v) (more : (streamOf u.posted).length + (fins + 1) < 2 ^ 31) :
    Tied u (fins + 1) v where
  paired := k.paired.longer (List.prefix_refl _) (fun over_ => ⟨over_, rfl⟩) (Nat.le_succ _) more
    (Advances.refl _)
  taken := k.taken
  given := k.given
  ended := k.ended

theorem fin (k : Tied u fins v) (alive : v.nextLayer = true)
    (more : (streamOf u.posted).length + (fins + 1) < 2 ^ 31) {q : UdtPacket}
    (member : q ∈ v.rcvBuf.pkts) (last : hasFin q.hdr.flags = true) (step : Step v .fin w) :
    Tied u (fins + 1) w ∧ Advances v.rcvNxt w.rcvNxt := by
  obtain ⟨paired, later⟩ := k.paired.fin alive more member last step
  obtain ⟨ended, _, some_⟩ := k.paired.drawing.fin q member last
  refine ⟨⟨paired, fun short => ?_, fun short => ?_, k.finCounted step trivial trivial⟩, later⟩
  · refine step.receives (k.taken short) trivial short (toNat_le_of_advances later) (fun _ => .inr ended)
      fun _ _ => ?_
    have here : w.nextLayer = true ∧ w.finHandled = true := by
      cases step with
      | fin => exact ⟨alive, rfl⟩
    have all := (paired.drawing.done here.2).2 here.1
    have length := congrArg List.length all
    rcases paired.drawing.count here.1 with ⟨zero, _⟩ | ⟨k, few, number, _⟩
    · exact absurd zero (later some_).2.1
    · have number : w.rcvNxt = 1 + BitVec.ofNat 32 (w.incoming.taken.length + k) := number
      rw [number, length, BitVec.toNat_add, BitVec.toNat_ofNat]
      change 1 + (streamOf u.posted).length ≤ (1 + _ % 2 ^ 32) % 2 ^ 32
      omega
  · have before := step.grows.1.length_le
    have shorter : 1 + v.last < 2 ^ 31 := (Nat.add_le_add_left before 1).trans_lt short
    exact step.hands (k.given shorter) trivial trivial k.paired.feeding short

end Tied

end UdtBoost
