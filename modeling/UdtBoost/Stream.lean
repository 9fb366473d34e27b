import UdtBoost.Excerpt
import UdtBoost.Numbering
import UdtBoost.RoundTrip
import UdtBoost.SendPipeline

/-! The stream of the user on its way out: every packet that is queued, and every segment that is
sent, is a piece of the stream at the number it carries. -/
namespace UdtBoost

/-- A packet of `snd_buf` with the bytes that the stream has at its number. -/
structure Piece (base : Word) (stream : List UChar) (q : UdtPacket) : Prop where
  off : q.hdr.off.toNat = UdtHdr.size
  length : q.data.length = q.hdr.len.toNat
  here : Excerpt.At base stream q.hdr.seq q.data

namespace Piece

variable {base : Word} {stream more : List UChar} {q r : UdtPacket}

theorem mono (piece : Piece base stream q) (longer : stream <+: more) : Piece base more q :=
  { piece with here := piece.here.mono longer }

theorem behind (piece : Piece (base + BitVec.ofNat 32 stream.length) more q) :
    Piece base (stream ++ more) q :=
  { piece with here := piece.here.behind }

theorem of_drop {m : Nat} (piece : Piece (base + BitVec.ofNat 32 m) (stream.drop m) q) :
    Piece base stream q :=
  { piece with here := piece.here.of_drop }

/-- Only the flags differ. -/
theorem congr (piece : Piece base stream q) (same : q.unflagged = r.unflagged) :
    Piece base stream r := by
  have mem : r.mem = q.mem := (congrArg UdtPacket.mem same).symm
  have seq : r.hdr.seq = q.hdr.seq := (congrArg (fun p => p.hdr.seq) same).symm
  have len : r.hdr.len = q.hdr.len := (congrArg (fun p => p.hdr.len) same).symm
  have off : r.hdr.off = q.hdr.off := (congrArg (fun p => p.hdr.off) same).symm
  have behind : UdtHdr.size ≤ q.hdr.off.toNat := piece.off.ge
  have data : r.data = q.data := by
    rw [UdtPacket.data_of_le behind, UdtPacket.data_of_le (by rwa [off]), mem, off, len]
  exact ⟨by rw [off, piece.off], by rw [data, len, piece.length], by rw [data, seq]; exact piece.here⟩

end Piece

namespace UdtBuf

variable {b b' : UdtBuf} {segSize : Nat}

/-- The segmentation loop. -/
theorem segment_pieces (large : 0 < segSize) (small : segSize < 2 ^ 16) (fuel : Nat) (seq : Word)
    (data : List UChar) : ∀ q ∈ segment segSize fuel seq data, Piece seq data q := by
  induction fuel generalizing seq data with
  | zero => simp [segment]
  | succ fuel ih =>
      rw [segment]
      split
      · simp
      · refine List.forall_mem_cons.mpr ⟨?_, ?_⟩
        · have size : (data.take segSize).length < 2 ^ 16 := by
            rw [List.length_take]
            omega
          have len : (alloc seq (data.take segSize)).hdr.len.toNat = (data.take segSize).length :=
            Nat.mod_eq_of_lt size
          have off : (alloc seq (data.take segSize)).hdr.off.toNat = UdtHdr.size := rfl
          have bytes : (alloc seq (data.take segSize)).data = data.take segSize := by
            rw [UdtPacket.data_of_le off.ge, off, len, Nat.sub_self, List.drop_zero]
            exact List.take_length
          refine ⟨off, by rw [bytes, len], ?_⟩
          rw [bytes]
          exact .start (List.take_prefix _ _)
        · intro q member
          have same : data.drop segSize = data.drop (min data.length segSize) := by
            rcases Nat.le_total data.length segSize with short | long
            · rw [Nat.min_eq_left short, List.drop_of_length_le short, List.drop_length]
            · rw [Nat.min_eq_right long]
          apply Piece.of_drop (m := min data.length segSize)
          rw [← same]
          exact ih _ _ q member

theorem appendData_pieces {data : Option (List UChar)} (small : segSize < 2 ^ 16)
    (appended : b.appendData data segSize = some b') : ∃ new,
      b'.pkts = b.pkts ++ new ∧ b'.seq = b.seq + BitVec.ofNat 32 (data.getD []).length ∧
        ∀ q ∈ new, Piece b.seq (data.getD []) q := by
  unfold appendData at appended
  cases data with
  | none => contradiction
  | some bytes =>
      dsimp only at appended
      split at appended
      case isTrue => contradiction
      case isFalse fits =>
        obtain rfl := Option.some.inj appended
        have large : 0 < segSize := by
          rw [not_or, not_or] at fits
          exact Nat.pos_of_ne_zero fits.2.2
        exact ⟨_, rfl, rfl, segment_pieces large small _ _ _⟩

/-- What whole operations become in the buffer. -/
theorem appendOps_pieces {ops : List SendOperation} (small : segSize < 2 ^ 16)
    (appended : b.appendOps segSize ops = some b') : ∃ new,
      b'.pkts = b.pkts ++ new ∧
        b'.seq = b.seq + BitVec.ofNat 32 (ops.flatMap SendOperation.bytes).length ∧
        ∀ q ∈ new, Piece b.seq (ops.flatMap SendOperation.bytes) q := by
  induction ops generalizing b with
  | nil =>
      obtain rfl := Option.some.inj appended
      exact ⟨[], by simp, by simp, by simp⟩
  | cons op ops ih =>
      rw [appendOps, Option.bind_eq_some_iff] at appended
      obtain ⟨c, first, rest⟩ := appended
      obtain ⟨front, pkts, seq, pieces⟩ := appendData_pieces small first
      obtain ⟨back, pkts', seq', pieces'⟩ := ih rest
      rw [List.flatMap_cons]
      refine ⟨front ++ back, by rw [pkts', pkts, List.append_assoc], ?_, ?_⟩
      · rw [seq', seq, List.length_append, BitVec.ofNat_add, BitVec.add_assoc]
        rfl
      · intro q member
        rcases List.mem_append.mp member with here | later
        · exact (pieces q here).mono (List.prefix_append _ _)
        · have piece := pieces' q later
          rw [seq] at piece
          exact piece.behind

end UdtBuf

/-- What follows the options of a datagram. -/
def Datagram.payload (w : Datagram) : List UChar := w.body.drop (w.hdr.ntoh.off.toNat - UdtHdr.size)

/-- The options fit into a header. -/
theorem Conn.composeOptions_length (c : Conn) :
    (c.composeOptions (UdtHdr.MAX_HEADER_SIZE - UdtHdr.size)).length ≤ 40 := by
  have space := sackArea_length c.sk.rcvBuf.reasmPkts
  rw [composeOptions_eq, List.length_append]
  exact Nat.add_le_add_left space 6

namespace Endpoint

variable {s : Endpoint} {pkt : Option UdtPacket} {nxt : Word}

/-- The packet chosen lies in the queue, where its segment is to start. -/
theorem Choice.fits (choice : s.Choice pkt nxt) (laid : s.sender.Laid) :
    ({ s with cb.sndNxt := nxt } : Endpoint).sender.Laid ∧
      Fits ({ s with cb.sndNxt := nxt } : Endpoint).sender pkt := by
  cases choice with
  | nothing => exact ⟨laid, fits_none _⟩
  | closedWindow =>
      refine ⟨laid.rewind (a := s.cb.sndUna) ?_, fits_none _⟩
      exact (Sender.off_una s.sender).trans_le (Nat.zero_le _)
  | @packet p q open_ selected =>
      have member : p ∈ s.sk.sndBuf.pkts := List.mem_of_find?_eq_some selected.first
      obtain ⟨_, some_, inside⟩ := laid.queue.mem member
      have span : q.span = p.span := by rcases selected.copy with rfl | rfl <;> rfl
      have seq : q.hdr.seq = p.hdr.seq := by rcases selected.copy with rfl | rfl <;> rfl
      have start : s.sender.off p.hdr.seq ≤ s.sender.reach := by
        have most := s.sender.bytes_le
        change p.place s.cb.sndUna ≤ _
        have inside : p.place s.cb.sndUna + p.span ≤ s.sender.bytes := inside
        omega
      refine ⟨laid.rewind start, ?_⟩
      rintro _ ⟨⟩
      refine ⟨seq.symm, by rwa [span], ?_⟩
      change (q.hdr.seq - s.cb.sndUna).toNat + q.span ≤ s.sender.bytes
      rw [seq, span]
      exact inside

end Endpoint

namespace Transmission

variable {d : Transmission}

/-- A segment with our FIN ends behind all data, and nothing waits to be queued. -/
theorem Real.fin_behind (real : d.Real) (placed : d.Placed) (fin : hasFin d.hdr.flags = true) :
    d.hdr.seq + d.hdr.len.setWidth 32 = d.before.sk.sndBuf.seq ∧
      UdtBuf.opsLen d.before.sk.sendOps = 0 := by
  obtain ⟨s, pkt, nxt, c', before, choice, sends⟩ := real
  have flags : d.hdr.flags = ({ s with cb.sndNxt := nxt } : Endpoint).sendFlags pkt := sends.flags
  have closing := (Endpoint.sendFlags_fin (flags ▸ fin)).1
  have past : ¬ s.cb.state.inHandshake := by
    rcases closing with state | state | state <;>
      exact fun handshake => absurd (show TcpState.inHandshake _ from state ▸ handshake) (by decide)
  obtain ⟨laid, fits⟩ := choice.fits (placed s before.symm past)
  obtain ⟨stop, _, none⟩ := Endpoint.fin_start laid fits (flags ▸ fin)
  have start : d.hdr.seq = s.toConn.core.rewound d.hdr.flags nxt := by
    rcases sends.seq with seq | ⟨_, _, noFin, _⟩
    · exact seq
    · exact absurd (fin.symm.trans noFin) (by decide)
  rw [before, start, sends.len, flags]
  exact ⟨stop, none⟩

/-- The payload of a segment is a packet's that was in `snd_buf`, at that packet's number. -/
theorem Real.carries (real : d.Real) (placed : d.Placed)
    (shook : d.before.cb.state.inHandshake → d.before.sk.sndBuf.pkts = []) :
    UdtHdr.size ≤ d.hdr.off.toNat ∧
      (d.hdr.off.toNat - UdtHdr.size) + d.dgram.payload.length = d.dgram.body.length ∧
      (d.hdr.len = 0 ∧ d.dgram.payload = [] ∨
        ∃ p ∈ d.before.sk.sndBuf.pkts, ∃ q : UdtPacket, p.unflagged = q.unflagged ∧ d.hdr.seq = q.hdr.seq ∧
          d.hdr.len = q.hdr.len ∧ d.dgram.payload = q.data) := by
  obtain ⟨s, pkt, nxt, c', before, choice, sends⟩ := real
  obtain ⟨opts, body, off, composed⟩ := sends.body
  have short : opts.length ≤ 40 := by
    rw [composed]
    split
    · exact d.before.composeOptions_length
    · exact Nat.zero_le _
  have area : d.hdr.off.toNat = UdtHdr.size + opts.length := by
    rw [off, BitVec.toNat_ofNat]
    unfold UdtHdr.size
    omega
  have payload : d.dgram.payload = (pkt.map UdtPacket.data).getD [] := by
    change d.dgram.body.drop (d.hdr.off.toNat - UdtHdr.size) = _
    rw [area, Nat.add_sub_cancel_left, body, List.drop_left]
  refine ⟨by omega, ?_, ?_⟩
  · rw [area, Nat.add_sub_cancel_left, payload, body, List.length_append]
  rw [payload]
  have none_ : pkt = none → d.hdr.len = 0 := by
    rintro rfl
    have len : d.hdr.len.setWidth 32 = 0 := sends.len
    bv_omega
  cases choice with
  | nothing => exact .inl ⟨none_ rfl, rfl⟩
  | closedWindow => exact .inl ⟨none_ rfl, rfl⟩
  | @packet p q open_ selected =>
      have member : p ∈ s.sk.sndBuf.pkts := List.mem_of_find?_eq_some selected.first
      have past : ¬ s.cb.state.inHandshake := by
        intro handshake
        rw [before] at shook
        rw [shook handshake] at member
        contradiction
      have laid := placed s before.symm past
      obtain ⟨_, some_, inside⟩ := laid.queue.mem member
      have same : p.unflagged = q.unflagged := by rcases selected.copy with rfl | rfl <;> rfl
      have seq : q.hdr.seq = p.hdr.seq := (congrArg (fun x => x.hdr.seq) same).symm
      have len : d.hdr.len = q.hdr.len := by
        have len : d.hdr.len.setWidth 32 = q.hdr.len.setWidth 32 := sends.len
        bv_omega
      have size : q.hdr.len = p.hdr.len := (congrArg (fun x => x.hdr.len) same).symm
      have some_ : 0 < p.hdr.len.toNat := some_
      have start : d.hdr.seq = s.toConn.core.rewound d.hdr.flags p.hdr.seq := by
        rcases sends.seq with seq | ⟨none, _⟩
        · exact seq
        · rw [← size, ← len, none] at some_
          contradiction
      refine .inr ⟨p, by rwa [before], q, same, ?_, len, rfl⟩
      have noSyn : hasSyn d.hdr.flags = false := by
        rw [sends.flags, Core.outputFlags_syn, Bool.eq_false_iff]
        exact fun syn => past (.inr ((TcpState.hasSyn_outflags _).mp syn))
      rw [start, seq]
      change ({ s with cb.sndNxt := p.hdr.seq } : Endpoint).toConn.core.rewound d.hdr.flags p.hdr.seq = _
      rw [Endpoint.rewound_plain noSyn]
      refine if_neg ?_
      rintro ⟨_, sent, top⟩
      -- our FIN is numbered behind everything queued
      have all := (laid.fin sent).1
      have half := s.sender.bytes_le
      have place : s.sender.off s.sender.top = p.place s.cb.sndUna := by
        rw [← all]
        exact congrArg s.sender.off top.symm
      have inside : p.place s.cb.sndUna + p.hdr.len.toNat ≤ s.sender.bytes := inside
      have reach : s.sender.reach = p.place s.cb.sndUna := place
      omega

end Transmission

namespace TcpState

/-- The user sends no more. -/
def finishing (q : TcpState) : Prop := ¬ (q = established ∨ q = closeWait) ∧ ¬ q.inHandshake

instance (q : TcpState) : Decidable q.finishing := inferInstanceAs (Decidable (_ ∧ _))

theorem finishing_acked {q : TcpState} {sentfin : Bool} (late : q.finishing) :
    (q.acked sentfin).finishing := by
  cases q <;> cases sentfin <;> revert late <;> decide

theorem finishing_finned {q : TcpState} (late : q.finishing) : q.finned.finishing := by
  cases q <;> revert late <;> decide

theorem finishing_of_isClosing {q : TcpState} (closing : q.isClosing) : q.finishing := by
  cases q <;> revert closing <;> decide

end TcpState

/-- The bytes of the user that were taken into `snd_buf`, as the send handlers are told. -/
def streamOf (posted : List Completion) : List UChar := posted.flatMap Completion.sentBytes

@[simp] theorem streamOf_append (posted more : List Completion) :
    streamOf (posted ++ more) = streamOf posted ++ streamOf more := List.flatMap_append

theorem streamOf_silent {c : List Completion} (silent : ∀ x ∈ c, x.sentBytes = []) :
    streamOf c = [] := List.flatMap_eq_nil_iff.mpr silent

theorem streamOf_done (ops : List SendOperation) :
    streamOf (ops.map fun op => .sent op .succeed op.buf.size) = ops.flatMap SendOperation.bytes := by
  induction ops with
  | nil => rfl
  | cons op ops ih =>
      have whole : (op.buf.data.getD []).take op.buf.size = op.bytes := List.take_length
      rw [List.map_cons, List.flatMap_cons, ← ih, ← whole]
      rfl

theorem bytes_length (ops : List SendOperation) :
    (ops.flatMap SendOperation.bytes).length = UdtBuf.opsLen ops := by
  rw [List.length_flatMap]
  rfl

/-- What of an endpoint the stream on its way out depends on. -/
structure Outgoing where
  nextLayer : Bool
  connected : Bool
  state : TcpState
  iss : Word
  seq : Word
  pkts : List UdtPacket
  ops : List SendOperation
  stream : List UChar
  sent : List Transmission
  wire : List Datagram

def View.outgoing (v : View) : Outgoing where
  nextLayer := v.nextLayer
  connected := v.connected
  state := v.state
  iss := v.iss
  seq := v.sndBuf.seq
  pkts := v.sndBuf.pkts
  ops := v.sendOps
  stream := streamOf v.posted
  sent := v.sent
  wire := v.wire

/-- A header alone, as `respond` sends it. -/
def Datagram.Bare (w : Datagram) : Prop :=
  ∃ hdr : UdtHdr, w = ⟨hdr.hton, []⟩ ∧ hdr.len = 0 ∧ hdr.off.toNat = UdtHdr.size ∧
    (hdr.flags = UdtHdr.TH_RST ∨ hdr.flags = UdtHdr.TH_ACK)

/-- The stream on its way out. Its first byte is numbered `base`. -/
structure Feeding (base : Word) (x : Outgoing) : Prop where
  shut : x.nextLayer = false → x.state = .closed
  past : x.connected = true → ¬ x.state.inHandshake
  idle : x.connected = false → (x.state = .closed ∨ x.state.inHandshake) ∧ x.stream = [] ∧
    x.pkts = [] ∧ x.ops = [] ∧ ∀ d ∈ x.sent, d.before.sk.sndBuf.pkts = []
  iss : x.iss = 0
  seq : x.connected = true → x.seq = base + BitVec.ofNat 32 x.stream.length
  queue : ∀ q ∈ x.pkts, Piece base x.stream q
  sent : ∀ d ∈ x.sent, d.before.cb.iss = 0 ∧
    (d.before.cb.state.inHandshake → d.before.sk.sndBuf.pkts = []) ∧
    ∀ q ∈ d.before.sk.sndBuf.pkts, Piece base x.stream q
  fin : ∀ d ∈ x.sent, hasFin d.hdr.flags = true → x.connected = true ∧ x.state.finishing ∧
    (d.Placed → UdtBuf.opsLen x.ops = 0 ∧
      d.hdr.seq + d.hdr.len.setWidth 32 = base + BitVec.ofNat 32 x.stream.length)
  wire : ∀ w ∈ x.wire, (∃ d ∈ x.sent, d.dgram = w) ∨ w.Bare

/-- One connection a socket, and no data before it is open or after the user has closed it. -/
def SendsInTime (v : View) : Act → Prop
  | .connect | .accept => v.nextLayer = true ∧ (v.state = .closed → v.connected = false)
  | .send _ => v.connected = true ∧ (v.state = .established ∨ v.state = .closeWait)
  | _ => True

namespace Feeding

variable {base : Word} {x y : Outgoing}

/-- The state moves on, while the connection stays what it is. -/
theorem move (f : Feeding base x) {q : TcpState} (shut : x.state = .closed → q = .closed)
    (past : ¬ x.state.inHandshake → ¬ q.inHandshake)
    (early : x.state = .closed ∨ x.state.inHandshake → q = .closed ∨ q.inHandshake)
    (late : x.state.finishing → q.finishing) : Feeding base { x with state := q } where
  shut down := shut (f.shut down)
  past open_ := past (f.past open_)
  idle no := ⟨early (f.idle no).1, (f.idle no).2⟩
  iss := f.iss
  seq := f.seq
  queue := f.queue
  sent := f.sent
  fin d member fin := by
    obtain ⟨open_, over_, ends⟩ := f.fin d member fin
    exact ⟨open_, late over_, ends⟩
  wire := f.wire

/-- Packets leave `snd_buf`. -/
theorem fewer (f : Feeding base x) {r : List UdtPacket} (sub : r ⊆ x.pkts) :
    Feeding base { x with pkts := r } :=
  { f with
    idle := fun no => by
      obtain ⟨state, stream, none, rest⟩ := f.idle no
      exact ⟨state, stream, List.subset_nil.mp (none ▸ sub), rest⟩
    queue := fun q member => f.queue q (sub member) }

/-- Whole operations move from the user's queue to the end of `snd_buf`. -/
theorem consume (f : Feeding base x) {ops rest : List SendOperation} {b b' : UdtBuf}
    {segSize : Nat} (small : segSize < 2 ^ 16) (queue : x.ops = ops ++ rest)
    (appended : b.appendOps segSize ops = some b') (pkts : b.pkts = x.pkts) (seq : b.seq = x.seq) :
    Feeding base { x with
      pkts := b'.pkts, seq := b'.seq, ops := rest
      stream := x.stream ++ ops.flatMap SendOperation.bytes } := by
  obtain ⟨new, grown, next, pieces⟩ := UdtBuf.appendOps_pieces small appended
  have longer : x.stream <+: x.stream ++ ops.flatMap SendOperation.bytes := List.prefix_append _ _
  have nothing : x.connected = false → ops = [] ∧ rest = [] := fun no => by
    obtain ⟨_, _, _, none, _⟩ := f.idle no
    exact List.append_eq_nil_iff.mp (queue.symm.trans none)
  refine { f with idle := ?_, seq := ?_, queue := ?_, sent := ?_, fin := ?_ }
  · intro no
    obtain ⟨state, stream, none, _, sent⟩ := f.idle no
    obtain ⟨rfl, rfl⟩ := nothing no
    obtain rfl := Option.some.inj appended
    exact ⟨state, by simpa using stream, pkts.trans none, rfl, sent⟩
  · intro open_
    change b'.seq = _
    rw [next, seq, f.seq open_, List.length_append, BitVec.ofNat_add, BitVec.add_assoc]
  · intro q member
    rw [grown, pkts] at member
    rcases List.mem_append.mp member with old | added
    · exact (f.queue q old).mono longer
    · cases open_ : x.connected with
      | false =>
          obtain ⟨rfl, -⟩ := nothing open_
          obtain rfl := Option.some.inj appended
          have none : new = [] := by simpa using grown
          rw [none] at added
          contradiction
      | true =>
          have piece := pieces q added
          rw [seq, f.seq open_] at piece
          exact piece.behind
  · intro d member
    obtain ⟨iss, shook, here⟩ := f.sent d member
    exact ⟨iss, shook, fun q inside => (here q inside).mono longer⟩
  · intro d member fin
    obtain ⟨open_, late, ends⟩ := f.fin d member fin
    refine ⟨open_, late, fun placed => ?_⟩
    obtain ⟨none, stop⟩ := ends placed
    rw [queue, opsLen_append] at none
    have empty : ops.flatMap SendOperation.bytes = [] := by
      apply List.eq_nil_of_length_eq_zero
      rw [bytes_length]
      omega
    refine ⟨by change UdtBuf.opsLen rest = 0; omega, ?_⟩
    rw [stop]
    change _ = base + BitVec.ofNat 32 (x.stream ++ _).length
    rw [empty, List.append_nil]

/-- A segment is sent from the state as it is. -/
theorem transmit (f : Feeding base x) {d : Transmission} (real : d.Real)
    (state : d.before.cb.state = x.state) (iss : d.before.cb.iss = x.iss)
    (seq : d.before.sk.sndBuf.seq = x.seq)
    (pkts : d.before.sk.sndBuf.pkts.map UdtPacket.unflagged = x.pkts)
    (ops : d.before.sk.sendOps = x.ops) :
    Feeding base { x with sent := x.sent ++ [d], wire := x.wire ++ [d.dgram] } := by
  have pieces : ∀ q ∈ d.before.sk.sndBuf.pkts, Piece base x.stream q := by
    intro q member
    have here : q.unflagged ∈ x.pkts := pkts ▸ List.mem_map_of_mem member
    exact (f.queue _ here).congr rfl
  have empty : x.pkts = [] → d.before.sk.sndBuf.pkts = [] := fun none =>
    List.map_eq_nil_iff.mp (pkts.trans none)
  have unopened : x.state.inHandshake → x.connected = false := fun handshake =>
    Bool.eq_false_iff.mpr fun open_ => f.past open_ handshake
  refine { f with idle := fun no => ?_, sent := ?_, fin := ?_, wire := ?_ }
  · obtain ⟨early, stream, none, queue, sent⟩ := f.idle no
    exact ⟨early, stream, none, queue, List.forall_mem_append.mpr
      ⟨sent, List.forall_mem_singleton.mpr (empty none)⟩⟩
  · refine List.forall_mem_append.mpr ⟨f.sent, List.forall_mem_singleton.mpr ⟨iss.trans f.iss, ?_, pieces⟩⟩
    intro handshake
    rw [state] at handshake
    exact empty (f.idle (unopened handshake)).2.2.1
  · refine List.forall_mem_append.mpr ⟨f.fin, List.forall_mem_singleton.mpr fun fin => ?_⟩
    have closing : x.state.isClosing := by
      obtain ⟨s, pkt, nxt, c', before, choice, sends⟩ := real
      have flags : d.hdr.flags = ({ s with cb.sndNxt := nxt } : Endpoint).sendFlags pkt := sends.flags
      have closing := (Endpoint.sendFlags_fin (flags ▸ fin)).1
      rw [← state, before]
      exact closing
    have open_ : x.connected = true := by
      by_contra no
      rcases (f.idle (Bool.eq_false_iff.mpr no)).1 with state | state | state | state <;>
        rw [state] at closing <;> revert closing <;> decide
    refine ⟨open_, TcpState.finishing_of_isClosing closing, fun placed => ?_⟩
    obtain ⟨stop, none⟩ := real.fin_behind placed fin
    exact ⟨ops ▸ none, by rw [stop, seq]; exact f.seq open_⟩
  · intro w member
    rcases List.mem_append.mp member with old | new
    · rcases f.wire w old with ⟨d', here, same⟩ | bare
      · exact .inl ⟨d', List.mem_append_left _ here, same⟩
      · exact .inr bare
    · exact .inl ⟨d, by simp, (List.mem_singleton.mp new).symm⟩

/-- A connection is begun, where none was open. -/
theorem begin (f : Feeding base x) (alive : x.nextLayer = true) (unopened : x.connected = false)
    {q : TcpState} (early : q.inHandshake) : Feeding base { x with state := q, iss := 0 } where
  shut down := absurd (alive.symm.trans down) (by simp)
  past open_ := absurd (unopened.symm.trans open_) (by simp)
  idle no := ⟨.inr early, (f.idle no).2⟩
  iss := rfl
  seq := f.seq
  queue := f.queue
  sent := f.sent
  fin d member fin := absurd (unopened.symm.trans (f.fin d member fin).1) (by simp)
  wire := f.wire

/-- The connection is open, and the stream starts at the next number. -/
theorem opened (f : Feeding base x) (received : x.state = .synReceived) (seq : Word) :
    Feeding seq { x with state := .established, connected := true, seq := seq } := by
  have unopened : x.connected = false := Bool.eq_false_iff.mpr fun open_ =>
    f.past open_ (.inr (.inr received))
  obtain ⟨_, stream, none, _, sent⟩ := f.idle unopened
  refine ⟨fun down => ?_, fun _ => ?_, by simp, f.iss, fun _ => ?_, ?_, ?_, ?_, f.wire⟩
  · have closed := f.shut down
    rw [received] at closed
    contradiction
  · exact (by decide : ¬ TcpState.established.inHandshake)
  · change seq = seq + BitVec.ofNat 32 x.stream.length
    rw [stream]
    simp
  · intro q member
    change q ∈ x.pkts at member
    rw [none] at member
    contradiction
  · intro d member
    obtain ⟨iss, shook, _⟩ := f.sent d member
    refine ⟨iss, shook, fun q inside => ?_⟩
    rw [sent d member] at inside
    contradiction
  · intro d member fin
    exact absurd (unopened.symm.trans (f.fin d member fin).1) (by simp)

/-- The user hands over an operation. -/
theorem queueOp (f : Feeding base x) (op : SendOperation) (open_ : x.connected = true)
    (sending : ¬ x.state.finishing) : Feeding base { x with ops := x.ops ++ [op] } :=
  { f with
    idle := fun no => absurd (open_.symm.trans no) (by simp)
    fin := fun d member fin => absurd (f.fin d member fin).2.1 sending }

/-- What was queued is forgotten. -/
theorem cancel (f : Feeding base x) : Feeding base { x with ops := [] } :=
  { f with
    idle := fun no => by
      obtain ⟨state, stream, pkts, _, sent⟩ := f.idle no
      exact ⟨state, stream, pkts, rfl, sent⟩
    fin := fun d member fin => by
      obtain ⟨open_, late, ends⟩ := f.fin d member fin
      exact ⟨open_, late, fun placed => ⟨rfl, (ends placed).2⟩⟩ }

theorem closed (f : Feeding base x) : Feeding base { x with state := .closed } :=
  f.move (fun _ => rfl) (fun _ => by decide) (fun _ => .inl rfl) fun _ => by decide

/-- A header goes out alone. -/
theorem respond (f : Feeding base x) {w : Datagram} (bare : w.Bare) :
    Feeding base { x with wire := x.wire ++ [w] } :=
  { f with wire := List.forall_mem_append.mpr ⟨f.wire, List.forall_mem_singleton.mpr (.inr bare)⟩ }

end Feeding

theorem Step.feeding {base : Word} {v w : View} {a : Act} (step : Step v a w)
    (legal : SendsInTime v a) (f : Feeding base v.outgoing) :
    ∃ base', Feeding base' w.outgoing ∧
      (base' = base ∨ v.state = .synReceived ∧ v.connected = false ∧ base' = v.sndNxt) := by
  have stays : ∀ {y : View}, Feeding base y.outgoing → ∃ base', Feeding base' y.outgoing ∧
      (base' = base ∨ v.state = .synReceived ∧ v.connected = false ∧ base' = v.sndNxt) :=
    fun f => ⟨base, f, .inl rfl⟩
  have silent : ∀ {y : View} {c : List Completion}, (∀ x ∈ c, x.sentBytes = []) →
      y.outgoing = { v.outgoing with stream := streamOf (v.posted ++ c) } →
        ∃ base', Feeding base' y.outgoing ∧
      (base' = base ∨ v.state = .synReceived ∧ v.connected = false ∧ base' = v.sndNxt) := by
    intro y c none same
    rw [streamOf_append, streamOf_silent none, List.append_nil] at same
    exact stays (same ▸ f)
  cases step with
  | @consume ops rest b segSize queue small appended =>
      have consumed := f.consume small (x := v.outgoing) queue appended rfl rfl
      apply stays
      rw [View.outgoing, streamOf_append, streamOf_done]
      exact consumed
  | @transmit c' pkt nxt d _ _ sends real =>
      have before := sends.before
      apply stays
      rw [sends.moved]
      exact f.transmit real (congrArg Core.state before) (congrArg Core.iss before)
        (congrArg (fun c => c.sndBuf.seq) before) (congrArg (fun c => c.sndBuf.pkts) before)
        (congrArg Core.sendOps before)
  | @ack p dropped rest _ _ split =>
      refine stays (f.fewer (r := rest) ?_)
      change rest ⊆ v.sndBuf.pkts
      rw [split]
      exact List.subset_append_right _ _
  | @sack p q block front back split =>
      refine stays (f.fewer (r := front ++ back) ?_)
      change front ++ back ⊆ v.sndBuf.pkts
      rw [split]
      exact ((List.sublist_cons_self q back).append_left front).subset
  | @ackAll p c all quiet =>
      have none : streamOf (v.posted ++ c) = streamOf v.posted := by
        rw [streamOf_append, streamOf_silent fun x member => (quiet x member).1, List.append_nil]
      by_cases received : v.state = .synReceived
      · have alive : v.nextLayer = true := by
          by_contra down
          have closed := f.shut (Bool.eq_false_iff.mpr down)
          exact absurd (received.symm.trans closed) (by decide)
        have unopened : v.connected = false := Bool.eq_false_iff.mpr fun open_ =>
          f.past open_ (.inr (.inr received))
        refine ⟨v.sndNxt, ?_, .inr ⟨received, unopened, rfl⟩⟩
        have opened := f.opened received v.sndNxt
        simp only [View.outgoing, received, alive, none, TcpState.acked, and_self, if_true,
          beq_self_eq_true, Bool.or_true] at opened ⊢
        exact opened
      · have other : (v.connected || v.state == .synReceived) = v.connected := by simp [received]
        have moved : Feeding base { v.outgoing with state := v.state.acked v.sentfin } := by
          refine f.move ?_ ?_ ?_ TcpState.finishing_acked <;> dsimp only [View.outgoing] <;>
            cases state : v.state <;> first | exact absurd state received | cases v.sentfin <;> decide
        apply stays
        simp only [View.outgoing, none, other, received, and_false, if_false] at moved ⊢
        exact moved
  | @syn p state =>
      have alive : v.nextLayer = true := by
        by_contra down
        have closed := f.shut (Bool.eq_false_iff.mpr down)
        rcases state with state | state | state <;>
          exact absurd (state.symm.trans closed) (by decide)
      have unopened : v.connected = false := Bool.eq_false_iff.mpr fun open_ => f.past open_ state
      have iss : (if v.state = .listen then sIss else v.iss) = 0 := by
        split
        · rfl
        · exact f.iss
      have begun := f.begin alive unopened (q := .synReceived) (.inr (.inr rfl))
      apply stays
      simp only [View.outgoing, iss] at begun ⊢
      exact begun
  | fin =>
      refine stays (f.move ?_ ?_ ?_ TcpState.finishing_finned) <;> dsimp only [View.outgoing] <;>
        cases v.state <;> decide
  | dispatch => exact silent (c := [_]) (by simp [Completion.sentBytes]) rfl
  | refuseReceive => exact silent (c := [_]) (by simp [Completion.sentBytes]) rfl
  | post quiet => exact silent (c := [_]) (by simpa using quiet.1) rfl
  | closed => exact stays f.closed
  | reset => exact stays (f.respond ⟨_, rfl, rfl, rfl, .inl rfl⟩)
  | keepalive => exact stays (f.respond ⟨_, rfl, rfl, rfl, .inr rfl⟩)
  | cancel => exact stays f.cancel
  | @send op _ _ =>
      refine stays (f.queueOp op legal.1 ?_)
      rcases legal.2 with state | state <;> change ¬ v.state.finishing <;> rw [state] <;> decide
  | connect state => exact stays (f.begin legal.1 (legal.2 state) (.inr (.inl rfl)))
  | accept state =>
      have begun := f.begin legal.1 (legal.2 state) (q := .listen) (.inl rfl)
      have iss : (0 : Word) = v.outgoing.iss := f.iss.symm
      rw [iss] at begun
      exact stays begun
  | shutdown =>
      refine stays (f.move ?_ ?_ ?_ ?_) <;> dsimp only [View.outgoing] <;> cases v.state <;> decide
  | close =>
      have emptied := f.closed.fewer (r := []) (List.nil_subset _)
      exact stays { emptied with shut := fun _ => rfl }
  | _ => exact stays f

/-- What a datagram says of the sender's stream is true. -/
structure Datagram.Tells (base : Word) (stream : List UChar) (w : Datagram) : Prop where
  whole : Endpoint.intact w.hdr (UdtHdr.size + w.body.length)
  off : UdtHdr.size ≤ w.hdr.ntoh.off.toNat
  data : Excerpt.At base stream w.hdr.ntoh.seq w.payload
  syn : hasSyn w.hdr.flags = true → w.hdr.ntoh.seq = 0 ∧ w.payload = [] ∧ hasFin w.hdr.flags = false
  fin : hasFin w.hdr.flags = true →
    w.hdr.ntoh.seq + w.hdr.ntoh.len.setWidth 32 = base + BitVec.ofNat 32 stream.length

theorem Datagram.Bare.tells {w : Datagram} (bare : w.Bare) (base : Word) (stream : List UChar) :
    w.Tells base stream := by
  obtain ⟨hdr, rfl, len, off, flags⟩ := bare
  have same : (⟨hdr.hton, []⟩ : Datagram).hdr.ntoh = hdr := UdtHdr.ntoh_hton hdr
  have plain : ∀ mask, hasFlag hdr.hton.flags mask = hasFlag hdr.flags mask := fun _ => rfl
  have none : (⟨hdr.hton, []⟩ : Datagram).payload = [] := List.drop_nil
  refine ⟨⟨Nat.le_refl _, ?_, ?_⟩, ?_, ?_, ?_, ?_⟩
  · rcases flags with flags | flags <;> rw [hasHp, plain, flags] <;> decide
  · rw [same, len, off]
    rfl
  · rw [same, off]
  · rw [none]
    exact Excerpt.at_nil _ _ _
  · intro syn
    rcases flags with flags | flags <;> rw [hasSyn, plain, flags] at syn <;> exact absurd syn (by decide)
  · intro fin
    rcases flags with flags | flags <;> rw [hasFin, plain, flags] at fin <;> exact absurd fin (by decide)

/-- A segment tells what the queue held when it was sent. -/
theorem Feeding.tells {base : Word} {x : Outgoing} (f : Feeding base x) {d : Transmission}
    (member : d ∈ x.sent) (real : d.Real) (placed : d.Placed) : d.dgram.Tells base x.stream := by
  obtain ⟨iss, shook, pieces⟩ := f.sent d member
  obtain ⟨off, body, carried⟩ := real.carries placed shook
  have flagged : ∃ q : TcpState, q = d.before.cb.state ∧
      (d.hdr.flags = q.outflags ∨ d.hdr.flags = q.outflags &&& ~~~UdtHdr.TH_FIN) := by
    obtain ⟨s, pkt, nxt, c', before, choice, sends⟩ := real
    refine ⟨s.cb.state, by rw [before], ?_⟩
    rw [sends.flags, Core.outputFlags]
    split
    · exact .inr rfl
    · exact .inl rfl
  have said : d.hdr.len.toNat = d.dgram.payload.length ∧
      Excerpt.At base x.stream d.hdr.seq d.dgram.payload := by
    rcases carried with ⟨len, none⟩ | ⟨p, queued, q, same, seq, len, payload⟩
    · rw [len, none]
      exact ⟨rfl, Excerpt.at_nil _ _ _⟩
    · have piece := (pieces p queued).congr same
      rw [len, seq, payload]
      exact ⟨piece.length.symm, piece.here⟩
  have flags : d.dgram.hdr.flags = d.hdr.flags := rfl
  refine ⟨⟨Nat.le_add_right _ _, ?_, ?_⟩, off, said.2, fun syn => ?_, fun fin => ?_⟩
  · obtain ⟨q, -, flagged | flagged⟩ := flagged <;> rw [flags, flagged] <;> cases q <;> decide
  · change d.hdr.len.toNat + d.hdr.off.toNat = _
    omega
  · obtain ⟨q, state, flagged⟩ := flagged
    have handshake : d.before.cb.state = .synSent ∨ d.before.cb.state = .synReceived := by
      rw [← state]
      rw [flags] at syn
      rcases flagged with flagged | flagged <;> rw [flagged] at syn <;> cases q <;>
        revert syn <;> decide
    have empty := shook (.inr handshake)
    rcases carried with ⟨_, none⟩ | ⟨p, queued, _⟩
    · obtain ⟨s, pkt, nxt, c', before, choice, sends⟩ := real
      have noFin : hasFin d.hdr.flags = false := by
        rw [sends.flags]
        apply Core.outputFlags_syn_fin
        rw [before] at handshake
        exact (TcpState.hasSyn_outflags _).mpr handshake
      have first : s.toConn.core.rewound d.hdr.flags nxt = 0 := by
        have zero : s.toConn.core.iss = 0 := by rwa [before] at iss
        simp [Core.rewound, show hasSyn d.hdr.flags = true from syn, noFin, zero]
      refine ⟨?_, none, noFin⟩
      rcases sends.seq with seq | ⟨_, noSyn, _⟩
      · exact seq.trans first
      · exact absurd (syn.symm.trans noSyn) (by decide)
    · rw [empty] at queued
      contradiction
  · exact ((f.fin d member fin).2.2 placed).2

namespace Endpoint

variable {s : Endpoint}

/-- Regular, and the user sends nothing after `shutdown`. -/
def Proper (s : Endpoint) (e : Event) : Prop :=
  s.Regular e ∧
    match e with
    | .send _ => s.cb.state = .established ∨ s.cb.state = .closeWait
    | _ => True

instance (s : Endpoint) : (e : Event) → Decidable (s.Proper e)
  | .send op => inferInstanceAs (Decidable (s.Regular (.send op) ∧ (_ ∨ _)))
  | .connect h => inferInstanceAs (Decidable (s.Regular (.connect h) ∧ True))
  | .accept h => inferInstanceAs (Decidable (s.Regular (.accept h) ∧ True))
  | .packet _ _ _ | .slowTimo | .fastTimo | .receive _ | .shutdown _ | .delayTimer _ | .receiveError _
  | .mtu | .setKeepalive _ | .setSndBuf _ | .setRcvBuf _ | .cancel | .close => .isTrue ⟨trivial, trivial⟩

/-- What the buffer of a receive leaves alone. -/
theorem doReceive_outgoing (s : Endpoint) : s.doReceive.view.outgoing = s.view.outgoing := by
  obtain ⟨pkt, next, _, result⟩ := s.doReceive_eq
  rw [result]
  rfl

theorem Proper.eventOk {e : Event} (proper : s.Proper e)
    (alive : ∀ h, e = .connect h ∨ e = .accept h → s.sk.nextLayer = true) :
    EventOk SendsInTime s e := by
  have begun : s.sk.nextLayer = true → (s.cb.state = .closed → s.Unused) →
      s.doReceive.view.nextLayer = true ∧
        (s.doReceive.view.state = .closed → s.doReceive.view.connected = false) := by
    intro alive unused
    have same := s.doReceive_outgoing
    have layer : s.doReceive.view.nextLayer = s.sk.nextLayer := congrArg Outgoing.nextLayer same
    have state : s.doReceive.view.state = s.cb.state := congrArg Outgoing.state same
    have connected : s.doReceive.view.connected = s.connected := congrArg Outgoing.connected same
    rw [layer, state, connected]
    exact ⟨alive, fun closed => (unused closed).connected⟩
  cases e with
  | packet hdr mem n =>
      refine fun _ _ _ => PacketOk.of_all fun v a packet => ?_
      cases a <;> trivial
  | connect h => exact begun (alive h (.inl rfl)) proper.1
  | accept h => exact begun (alive h (.inr rfl)) proper.1
  | send op => exact ⟨proper.1.1, proper.2⟩
  | slowTimo => exact fun _ _ => trivial
  | close => exact fun _ => trivial
  | _ => trivial

/-- A proper event sends in time, and what is begun on a closed socket does nothing. -/
theorem Proper.path {e : Event} (proper : s.Proper e) :
    ViewPath SendsInTime s.view (s.step e).view := by
  by_cases quiet : s.sk.nextLayer = false ∧ ∃ h, e = .connect h ∨ e = .accept h
  · obtain ⟨down, h, rfl | rfl⟩ := quiet
    · rw [step, asyncConnect, if_neg (by simp [down])]
      exact .refl _
    · rw [step, asyncAccept, if_neg (by simp [down])]
      exact .refl _
  · have alive : ∀ h, e = .connect h ∨ e = .accept h → s.sk.nextLayer = true := by
      intro h begins
      by_contra down
      exact quiet ⟨Bool.eq_false_iff.mpr down, h, begins⟩
    exact s.step_path e (fun _ => trivial) (proper.eventOk alive)

theorem step_feeding (e : Event) (proper : s.Proper e)
    (f : ∃ base, Feeding base s.view.outgoing) : ∃ base, Feeding base (s.step e).view.outgoing := by
  refine proper.path.invariant (I := fun v => ∃ base, Feeding base v.outgoing) f ?_
  rintro v a w ⟨base, f⟩ legal step
  obtain ⟨base', f', -⟩ := step.feeding legal f
  exact ⟨base', f'⟩

theorem init_feeding (fack sndSeq rcvSeq base : Word) (env : Env) :
    Feeding base (init fack sndSeq rcvSeq env).view.outgoing := by
  refine ⟨fun _ => rfl, fun open_ => ?_, fun _ => ⟨.inl rfl, rfl, rfl, rfl, ?_⟩, rfl, fun open_ => ?_,
    ?_, ?_, ?_, ?_⟩
  · contradiction
  · intro d member
    contradiction
  · contradiction
  all_goals
    intro d member
    contradiction

theorem run_feeding (fack sndSeq rcvSeq : Word) (env : Env) (es : List Event)
    (proper : Trace.Meets step Proper (init fack sndSeq rcvSeq env) es) :
    ∃ base, Feeding base ((init fack sndSeq rcvSeq env).run es).view.outgoing :=
  proper.invariant ⟨0, init_feeding fack sndSeq rcvSeq 0 env⟩
    fun _ e f proper => step_feeding e proper f

/-- The bytes whose sending the user was told of. -/
def stream (s : Endpoint) : List UChar := streamOf s.posted

/-- Whatever is sent, for the first time or again, alone or behind options: its payload is what the
user's stream has at its number, and a FIN ends the stream. -/
theorem wire_tells_stream (fack sndSeq rcvSeq : Word) (env : Env) (es : List Event)
    (proper : Trace.Meets step Proper (init fack sndSeq rcvSeq env) es) :
    ∃ base, ∀ w ∈ ((init fack sndSeq rcvSeq env).run es).wire,
      w.Tells base ((init fack sndSeq rcvSeq env).run es).stream := by
  obtain ⟨base, f⟩ := run_feeding fack sndSeq rcvSeq env es proper
  have regular : Trace.Meets step Regular (init fack sndSeq rcvSeq env) es :=
    proper.imp (I := fun _ => True) trivial (fun _ _ _ _ => trivial) fun _ _ _ proper => proper.1
  have order := run_inOrder fack sndSeq rcvSeq env es regular
  have log := run_logged fack sndSeq rcvSeq env es
  refine ⟨base, fun w member => ?_⟩
  rcases f.wire w member with ⟨d, sent, rfl⟩ | bare
  · exact f.tells sent (log.sent d sent).1 (order.logged d sent)
  · exact bare.tells base _

theorem wire_tells_stream_sentAgain :
    let s := (init 0 0 0 Env.zero).run sentAgain
    s.wire.length = 4 ∧ s.stream = [1, 2, 3] ∧ ∃ base, ∀ w ∈ s.wire, w.Tells base s.stream :=
  ⟨by decide +kernel, by decide +kernel, wire_tells_stream 0 0 0 Env.zero sentAgain (by decide +kernel)⟩

end Endpoint

end UdtBoost
