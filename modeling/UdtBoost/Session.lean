import UdtBoost.Network

/-! What two users can rely on, whatever they, their hosts and the network do. -/
namespace UdtBoost

/-- A user's buffer of three bytes. -/
def ConstBuffer.three (x y z : UChar) : ConstBuffer where
  data := some [x, y, z]
  size_lt _ same := by
    cases same
    change 3 < 2 ^ 32
    decide

namespace Endpoint

/-- The bytes that receive handlers were given. -/
def receivedBytes (s : Endpoint) : List UChar := s.posted.flatMap Completion.receivedBytes

/-- The bytes received in order, given to a handler or not yet. -/
def taken (s : Endpoint) : List UChar := s.receivedBytes ++ payload s.sk.rcvBuf.pkts

/-- What the constructor of a socket leaves open, and its host. -/
structure Blank where
  fack : Word
  sndSeq : Word
  rcvSeq : Word
  env : Env

def Blank.endpoint (b : Blank) : Endpoint := init b.fack b.sndSeq b.rcvSeq b.env

/-- Two sockets that were never used. -/
def session (a b : Blank) : Duplex Endpoint := ⟨a.endpoint, b.endpoint⟩

/-- Whatever two users, two hosts and the network between them do. -/
def Session (a b : Blank) (es : List (Duplex.Side × Event)) : Prop :=
  Trace.Meets (Duplex.step step) (Duplex.Allowed Honest) (session a b) es ∧
    ∀ side, Brief es.length (((session a b).run step es).own side)

/-- The socket of one side after it. -/
def after (a b : Blank) (es : List (Duplex.Side × Event)) (side : Duplex.Side) : Endpoint :=
  ((session a b).run step es).own side

/-- The socket of the other side. -/
def peerAfter (a b : Blank) (es : List (Duplex.Side × Event)) (side : Duplex.Side) : Endpoint :=
  ((session a b).run step es).other side

section Results

variable {a b : Blank} {es : List (Duplex.Side × Event)}

theorem session_link (session : Session a b es) (side : Duplex.Side) :
    Link es.length (after a b es side) (peerAfter a b es side) := by
  refine linkRule.run session.1 session.2 (fun side => ?_) side
  cases side <;> exact init_link _ _ _ _ _ _ _ _

theorem session_back (session : Session a b es) (side : Duplex.Side) :
    Link es.length (peerAfter a b es side) (after a b es side) := by
  cases side with
  | near => exact session_link session .far
  | far => exact session_link session .near

/-- A socket on a host whose clock stands still. -/
def blank : Blank := ⟨0, 0, 0, Env.zero⟩

/-- Three bytes and the end of the stream. The SYN comes once more after the handshake, and the bytes
come twice. -/
def exchange : List (Duplex.Side × Event) :=
  let cwnd : List UChar := [6, 6, 0, 0, 32, 70]
  let greeting := Event.datagram ⟨0, UdtHdr.TH_SYN, 32768, 0, 20, 0, 0, 0⟩ []
  let bytes := Event.datagram ⟨0, UdtHdr.TH_ACK, 32768, 3, 26, 1, 1, 0⟩ (cwnd ++ [1, 2, 3])
  [(.far, .accept 0), (.near, .connect 0), (.far, greeting),
    (.near, .datagram ⟨0, UdtHdr.TH_SYN ||| UdtHdr.TH_ACK, 32768, 0, 26, 0, 1, 0⟩ [6, 6, 0, 0, 28, 176]),
    (.far, .datagram ⟨0, UdtHdr.TH_ACK, 32768, 0, 26, 1, 1, 0⟩ cwnd), (.far, greeting),
    (.near, .send ⟨.three 1 2 3, 0⟩), (.far, bytes),
    (.far, bytes), (.far, .receive ⟨⟨false, 10⟩, 0⟩), (.near, .shutdown 0),
    (.far, .datagram ⟨0, UdtHdr.TH_ACK ||| UdtHdr.TH_FIN, 32768, 0, 26, 4, 1, 0⟩ cwnd),
    (.near, .datagram ⟨0, UdtHdr.TH_ACK, 32765, 0, 26, 1, 4, 1⟩ cwnd)]

theorem exchange_session : Session blank blank exchange ∧
    (after blank blank exchange .far).receivedBytes = [1, 2, 3] ∧
    (after blank blank exchange .far).finHandled = true ∧
    (after blank blank exchange .far).sk.nextLayer = true ∧
    (peerAfter blank blank exchange .far).cb.sndUna = 4 ∧
    (after blank blank exchange .near).connected = true := by
  refine ⟨⟨by decide +kernel, fun side => ?_⟩, by decide +kernel⟩
  cases side <;> decide +kernel

/-- What one user receives is a prefix of what the other user has sent. -/
theorem received_prefix_sent (session : Session a b es) (side : Duplex.Side) :
    (after a b es side).receivedBytes <+: (peerAfter a b es side).stream :=
  (List.prefix_append _ _).trans (session_link session side).tied.paired.drawing.taken

theorem received_prefix_sent_exchange :
    (after blank blank exchange .far).receivedBytes <+: (peerAfter blank blank exchange .far).stream ∧
      (after blank blank exchange .far).receivedBytes = [1, 2, 3] :=
  have ⟨session, received, _⟩ := exchange_session
  ⟨received_prefix_sent session .far, received⟩

/-- What is acknowledged was received: by `m_snd_una`, and by every segment and probe on the wire. -/
theorem acknowledged_received (session : Session a b es) (side : Duplex.Side)
    (open_ : (after a b es side).sk.nextLayer = true) :
    ((peerAfter a b es side).cb.sndUna ≠ 0 →
      (peerAfter a b es side).stream.take ((peerAfter a b es side).cb.sndUna - 1).toNat <+:
        (after a b es side).taken) ∧
    ∀ w ∈ (after a b es side).wire, hasAck w.hdr.flags = true →
      (peerAfter a b es side).stream.take (w.hdr.ntoh.ack - 1).toNat <+: (after a b es side).taken := by
  have link := session_link session side
  have back := session_back session side
  refine ⟨fun some_ => ?_, fun w member isAck => ?_⟩
  · rcases back.tied.paired.acked with zero | reached
    · exact absurd zero some_
    · exact link.tied.paired.drawing.reached_taken open_ reached
  · exact link.tied.paired.drawing.reached_taken open_ (link.spoken w member isAck).1

theorem acknowledged_received_exchange :
    (peerAfter blank blank exchange .far).cb.sndUna = 4 ∧
      (peerAfter blank blank exchange .far).stream.take 3 <+: (after blank blank exchange .far).taken := by
  obtain ⟨session, -, -, open_, una, -⟩ := exchange_session
  have received := (acknowledged_received session .far open_).1 (by rw [una]; decide)
  rw [una] at received
  exact ⟨una, received⟩

theorem used_of_wire {side : Duplex.Side} {w : Datagram} (member : w ∈ (after a b es side).wire) :
    es ≠ [] := by
  rintro rfl
  cases side <;> exact absurd member List.not_mem_nil

theorem used_of_byte {side : Duplex.Side} {k : Nat} {c : UChar}
    (byte : (peerAfter a b es side).stream[k]? = some c) : es ≠ [] := by
  rintro rfl
  cases side <;> exact absurd byte (Option.some_ne_none c).symm

theorem session_short (session : Session a b es) (used : es ≠ []) (side : Duplex.Side) :
    1 + (peerAfter a b es side).view.last < 2 ^ 31 := by
  have brief : (peerAfter a b es side).stream.length + es.length < 2 ^ 31 :=
    (session_link session side).tied.paired.drawing.short
  have some_ : es.length ≠ 0 := fun none => used (List.eq_nil_of_length_eq_zero none)
  change 1 + (peerAfter a b es side).stream.length < 2 ^ 31
  omega

theorem session_custody (session : Session a b es) (used : es ≠ []) (side : Duplex.Side) :
    Custody (after a b es side).view (peerAfter a b es side).view :=
  (session_link session side).tied.taken (session_short session used side)

/-- A byte that was received is still there. -/
theorem session_has (session : Session a b es) (side : Duplex.Side)
    (open_ : (after a b es side).sk.nextLayer = true) {k : Nat} {c : UChar}
    (byte : (peerAfter a b es side).stream[k]? = some c) (has : (after a b es side).view.Has (k + 1)) :
    (after a b es side).taken[k]? = some c ∨
      ∃ r ∈ (after a b es side).sk.rcvBuf.reasmPkts, r.Carries k c := by
  have inside : k < (peerAfter a b es side).stream.length := (List.getElem?_eq_some_iff.mp byte).1
  have used := used_of_byte byte
  have drawing := (session_link session side).tied.paired.drawing
  rcases has with low | ⟨r, member, covers⟩
  · left
    have whole : k < (after a b es side).taken.length := by
      rcases drawing.below_taken open_ low with below | ⟨_, all⟩
      · exact below
      · have all : (after a b es side).taken = (peerAfter a b es side).stream := all
        rw [all]
        exact inside
    obtain ⟨rest, split⟩ := drawing.taken
    have split : (after a b es side).taken ++ rest = (peerAfter a b es side).stream := split
    rw [← byte, ← split, List.getElem?_append_left whole]
  · have genuine := drawing.waiting r member
    have parcel := (session_custody session used side).waiting r member
    have small := drawing.short
    exact .inr ⟨r, member, UdtPacket.carries_of_covers genuine.here genuine.sound.data_length parcel.first
      (by omega) covers byte⟩

/-- While both sockets are open, every byte of the stream was received, waits behind a gap, or is still
in `snd_buf`. -/
theorem no_byte_lost (session : Session a b es) (side : Duplex.Side)
    (open_ : (after a b es side).sk.nextLayer = true)
    (there : (peerAfter a b es side).sk.nextLayer = true) {k : Nat} {c : UChar}
    (byte : (peerAfter a b es side).stream[k]? = some c) :
    (after a b es side).taken[k]? = some c ∨
      (∃ r ∈ (after a b es side).sk.rcvBuf.reasmPkts, r.Carries k c) ∨
      ∃ q ∈ (peerAfter a b es side).sk.sndBuf.pkts, q.Carries k c := by
  have inside : k < (peerAfter a b es side).stream.length := (List.getElem?_eq_some_iff.mp byte).1
  have used := used_of_byte byte
  have custody := session_custody session used side
  rcases custody.covered open_ there (k + 1) (Nat.le_add_left 1 k) inside with has | ⟨q, member, covers⟩
  · exact (session_has session side open_ byte has).imp_right .inl
  · have some_ : q.span ≠ 0 := by
      have low := covers.1
      have high := covers.2
      omega
    have parcel := custody.queued q (.inl member) some_
    have piece := (session_back session side).tied.paired.feeding.queue q member
    have small := session_short session used side
    obtain ⟨r, queued, rfl⟩ := List.mem_map.mp member
    have piece : Piece 1 (peerAfter a b es side).stream r := piece.congr rfl
    refine .inr (.inr ⟨r, queued, UdtPacket.carries_of_covers piece.here piece.length parcel.first ?_
      covers byte⟩)
    exact ((Nat.le_add_left _ 1).trans_lt small).trans (by decide)

/-- The second of two segments overtakes the first, and a SACK block takes it out of `snd_buf`. -/
def overtaken : List (Duplex.Side × Event) :=
  let cwnd : List UChar := [6, 6, 0, 0, 32, 70]
  [(.far, .accept 0), (.near, .connect 0),
    (.far, .datagram ⟨0, UdtHdr.TH_SYN, 32768, 0, 20, 0, 0, 0⟩ []),
    (.near, .datagram ⟨0, UdtHdr.TH_SYN ||| UdtHdr.TH_ACK, 32768, 0, 26, 0, 1, 0⟩ [6, 6, 0, 0, 28, 176]),
    (.far, .datagram ⟨0, UdtHdr.TH_ACK, 32768, 0, 26, 1, 1, 0⟩ cwnd),
    (.near, .send ⟨.three 1 2 3, 0⟩),
    (.near, .send ⟨⟨some [4, 5], fun _ same => by cases same; decide⟩, 1⟩),
    (.far, .datagram ⟨0, UdtHdr.TH_ACK, 32768, 2, 26, 4, 1, 0⟩ (cwnd ++ [4, 5])),
    (.near, .datagram ⟨0, UdtHdr.TH_ACK, 32768, 0, 36, 1, 1, 4⟩
      (cwnd ++ [5, 10, 0, 0, 0, 4, 0, 0, 0, 6]))]

/-- The segment that carries the block. -/
def sackReply : Datagram :=
  ⟨(⟨0, UdtHdr.TH_ACK, 32768, 0, 36, 1, 1, 4⟩ : UdtHdr).hton,
    [6, 6, 0, 0, 32, 70, 5, 10, 0, 0, 0, 4, 0, 0, 0, 6]⟩

theorem overtaken_session : Session blank blank overtaken ∧
    (after blank blank overtaken .far).sk.nextLayer = true ∧
    (peerAfter blank blank overtaken .far).sk.nextLayer = true ∧
    (after blank blank overtaken .far).taken = [] ∧
    (peerAfter blank blank overtaken .far).stream = [1, 2, 3, 4, 5] ∧
    (peerAfter blank blank overtaken .far).sk.sndBuf.pkts.map (fun q => (q.hdr.seq, q.data)) =
      [(1, [1, 2, 3])] ∧
    sackReply ∈ (after blank blank overtaken .far).wire := by
  refine ⟨⟨by decide +kernel, fun side => ?_⟩, by decide +kernel⟩
  cases side <;> decide +kernel

theorem no_byte_lost_overtaken :
    (∃ r ∈ (after blank blank overtaken .far).sk.rcvBuf.reasmPkts, r.Carries 3 4) ∧
      (peerAfter blank blank overtaken .far).sk.sndBuf.pkts.length = 1 := by
  obtain ⟨session, open_, there, nothing, stream, left, -⟩ := overtaken_session
  have byte : (peerAfter blank blank overtaken .far).stream[3]? = some 4 := by rw [stream]; rfl
  refine ⟨?_, by simpa using congrArg List.length left⟩
  rcases no_byte_lost session .far open_ there byte with
    taken | waits | ⟨q, member, i, place, at_⟩
  · rw [nothing] at taken
    contradiction
  · exact waits
  · have shape := List.mem_map_of_mem (f := fun q => (q.hdr.seq, q.data)) member
    rw [left, List.mem_singleton, Prod.mk.injEq] at shape
    obtain ⟨seq, data⟩ := shape
    rw [seq] at place
    rw [data] at at_
    have place : 1 + i = 3 + 1 := place
    have below : i < 3 := (List.getElem?_eq_some_iff.mp at_).1
    omega

/-- What a SACK block on the wire names, the receiver keeps. -/
theorem sacked_kept (session : Session a b es) (side : Duplex.Side)
    (open_ : (after a b es side).sk.nextLayer = true) {w : Datagram} (member : w ∈ (after a b es side).wire)
    {hdr : UdtHdr} {mem : List UChar} {m : Nat} (fills : w.Fills hdr mem m) (buffer : Nat) {block : PairSeq}
    (named : block ∈ (hostPacket hdr mem buffer).options.1) {k : Nat} {c : UChar}
    (first : block.1.toNat ≤ k + 1) (last : k + 1 < block.2.toNat)
    (byte : (peerAfter a b es side).stream[k]? = some c) :
    (after a b es side).taken[k]? = some c ∨
      ∃ r ∈ (after a b es side).sk.rcvBuf.reasmPkts, r.Carries k c := by
  have used := used_of_wire member
  have reported := (session_link session side).reports member fills buffer block named
  have held := ((session_custody session used side).blocks block reported).2.2 open_
  exact session_has session side open_ byte (held (k + 1) first last)

theorem sacked_kept_overtaken :
    ∃ r ∈ (after blank blank overtaken .far).sk.rcvBuf.reasmPkts, r.Carries 4 5 := by
  obtain ⟨session, open_, -, nothing, stream, -, sent⟩ := overtaken_session
  have byte : (peerAfter blank blank overtaken .far).stream[4]? = some 5 := by rw [stream]; rfl
  have fills : sackReply.Fills sackReply.hdr sackReply.body 36 := by decide
  have named : (4, 6) ∈ (hostPacket sackReply.hdr sackReply.body 0).options.1 := by decide
  have kept := sacked_kept session .far open_ sent fills 0 named (k := 4) (by decide) (by decide) byte
  rw [nothing] at kept
  exact kept.resolve_left (by simp)

/-- No acknowledgement on the wire ends inside a packet that is still in `snd_buf`. -/
theorem acks_whole (session : Session a b es) (side : Duplex.Side) {w : Datagram}
    (member : w ∈ (after a b es side).wire) (isAck : hasAck w.hdr.flags = true) :
    ∀ q ∈ (peerAfter a b es side).sk.sndBuf.pkts, q.hdr.len = 0 ∨
      w.hdr.ntoh.ack.toNat ≤ q.hdr.seq.toNat ∨
      q.hdr.seq.toNat + q.hdr.len.toNat ≤ w.hdr.ntoh.ack.toNat := by
  intro q queued
  have used := used_of_wire member
  have known := (session_custody session used side).acks _ (.inr ⟨w, member, isAck, rfl⟩)
  have cut := known.cut q.unflagged (List.mem_map_of_mem queued)
  unfold Extents.Cut at cut
  rw [UdtPacket.place_zero] at cut
  exact cut.imp_left fun none => BitVec.eq_of_toNat_eq none

theorem acks_whole_overtaken : (peerAfter blank blank overtaken .far).sk.sndBuf.pkts.length = 1 ∧
    ∀ q ∈ (peerAfter blank blank overtaken .far).sk.sndBuf.pkts, q.hdr.len = 0 ∨
      (1 : Word).toNat ≤ q.hdr.seq.toNat ∨
      q.hdr.seq.toNat + q.hdr.len.toNat ≤ (1 : Word).toNat := by
  have ack : sackReply.hdr.ntoh.ack = 1 := by decide
  obtain ⟨session, -, -, -, -, left, sent⟩ := overtaken_session
  have whole := acks_whole session .far sent (by decide)
  rw [ack] at whole
  exact ⟨by simpa using congrArg List.length left, whole⟩

/-- The FIN is acknowledged. -/
def finished : List (Duplex.Side × Event) :=
  exchange ++ [(.near, .datagram ⟨0, UdtHdr.TH_ACK, 32765, 0, 26, 1, 5, 4⟩ [6, 6, 0, 0, 32, 70])]

end Results

end Endpoint

end UdtBoost
