import UdtBoost.SendQueue
import UdtBoost.Sent

/-! The sending half of an endpoint. Once the connection is open `snd_buf` lies between `m_snd_una`
and `m_seq`, and every sequence number in use lies between `m_snd_una` and the end of what was
queued. Before that nothing but a SYN is numbered. -/
namespace UdtBoost

/-- What of an endpoint the numbering of the data sent depends on. -/
structure Sender where
  nextLayer : Bool
  connected : Bool
  state : TcpState
  sentfin : Bool
  tPersist : Half
  iss : Word
  una : Word
  nxt : Word
  max : Word
  retransData : Word
  buf : UdtBuf
  ops : List SendOperation
  pending : Word

def Endpoint.sender (s : Endpoint) : Sender where
  nextLayer := s.sk.nextLayer
  connected := s.connected
  state := s.cb.state
  sentfin := s.cb.flags.sentfin
  tPersist := s.cb.tPersist
  iss := s.cb.iss
  una := s.cb.sndUna
  nxt := s.cb.sndNxt
  max := s.cb.sndMax
  retransData := s.cb.retransData
  buf := s.sk.sndBuf
  ops := s.sk.sendOps
  pending := s.sk.pendingData

namespace TcpState

/-- The SYNs are not yet both acknowledged. -/
def inHandshake (q : TcpState) : Prop := q = listen ∨ q = synSent ∨ q = synReceived

/-- A FIN of ours is still to be sent or to be acknowledged. -/
def isClosing (q : TcpState) : Prop := q = finWait1 ∨ q = closing ∨ q = lastAck

instance (q : TcpState) : Decidable q.inHandshake := inferInstanceAs (Decidable (_ ∨ _))
instance (q : TcpState) : Decidable q.isClosing := inferInstanceAs (Decidable (_ ∨ _))

theorem hasFin_outflags (q : TcpState) : hasFin q.outflags = true ↔ q.isClosing := by
  cases q <;> decide

theorem hasSyn_outflags (q : TcpState) :
    hasSyn q.outflags = true ↔ q = synSent ∨ q = synReceived := by
  cases q <;> decide

end TcpState

/-- A half of the circle, less one for the FIN: no distance in use may reach it. -/
def maxReach : Nat := 2 ^ 31 - 1

namespace Sender

variable {x : Sender} {a b : Word}

/-- The distance of a sequence number from `m_snd_una`. -/
def off (x : Sender) (a : Word) : Nat := (a - x.una).toNat

/-- The number after everything queued so far, and after the FIN when it was sent. -/
def top (x : Sender) : Word := x.buf.seq + if x.sentfin then 1 else 0

def reach (x : Sender) : Nat := x.off x.top

/-- The bytes between `m_snd_una` and `m_seq`. -/
def bytes (x : Sender) : Nat := x.reach - if x.sentfin then 1 else 0

/-- An open connection's data is where its numbers say. -/
structure Laid (x : Sender) : Prop where
  open_ : ¬ x.state.inHandshake
  nxt : x.off x.nxt ≤ x.reach
  max : x.off x.max ≤ x.reach
  queue : Queued x.una 0 x.bytes x.buf.pkts
  cc : x.buf.cc.toNat = totalLen x.buf.pkts
  pending : x.pending.toNat = UdtBuf.opsLen x.ops
  room : x.bytes + UdtBuf.opsLen x.ops < maxReach
  -- a FIN is sent after all data, and unacknowledged as long as the state waits for that
  fin : x.sentfin = true → x.max = x.top ∧ UdtBuf.opsLen x.ops = 0 ∧
    x.state ≠ .established ∧ x.state ≠ .closeWait ∧ (x.state.isClosing → x.reach ≠ 0)
  flagged : ∀ q ∈ x.buf.pkts, hasRexmt q.hdr.flags = true → q.place x.una < x.off x.max
  retrans : x.retransData.toNat = flaggedLen x.buf.pkts

/-- Before the connection is open only a SYN has been numbered. -/
structure Fresh (x : Sender) : Prop where
  state : x.state = .closed ∨ x.state.inHandshake
  sentfin : x.sentfin = false
  tPersist : x.tPersist = 0
  iss : x.iss = 0
  una : x.una.toNat ≤ x.max.toNat
  max : x.max.toNat ≤ 1
  nxt : x.nxt.toNat ≤ 1
  retrans : x.retransData = 0
  pkts : x.buf.pkts = []
  cc : x.buf.cc = 0
  ops : x.ops = []
  pending : x.pending = 0

/-- The numbers of an endpoint whose socket is not closed. -/
def Sound (x : Sender) : Prop :=
  x.nextLayer = true → (x.connected = true → x.Laid) ∧ (x.connected = false → x.Fresh)

theorem off_una (x : Sender) : x.off x.una = 0 := by
  simp [off]

theorem off_eq_iff : x.off a = x.off b ↔ a = b := by
  unfold off
  constructor
  · intro same
    bv_omega
  · rintro rfl
    rfl

/-- Inside half of the circle the code's comparisons are those of the distances. -/
theorem seqLt_iff_off (small : x.off a < 2 ^ 31) (small' : x.off b < 2 ^ 31) :
    seqLt a b ↔ x.off a < x.off b := by
  unfold off at *
  rw [seqLt_iff]
  bv_omega

theorem seqGt_iff_off (small : x.off a < 2 ^ 31) (small' : x.off b < 2 ^ 31) :
    seqGt a b ↔ x.off b < x.off a := by
  unfold off at *
  rw [seqGt_iff]
  bv_omega

theorem off_seqMax (small : x.off a < 2 ^ 31) (small' : x.off b < 2 ^ 31) :
    x.off (seqMax a b) = x.off a ⊔ x.off b := by
  rcases seqMax_cases a b with ⟨same, above⟩ | ⟨same, below⟩
  · have above := (seqGt_iff_off small small').mp above
    rw [same]
    omega
  · have below := (seqGt_iff_off small small').not.mp (not_not.mpr below)
    rw [same]
    omega

theorem bytes_le (x : Sender) : x.bytes ≤ x.reach := Nat.sub_le _ _

theorem reach_le (x : Sender) : x.reach ≤ x.bytes + 1 := by
  unfold bytes
  split <;> omega

theorem reach_of_unsent (unsent : x.sentfin = false) : x.reach = x.bytes := by
  simp [bytes, unsent]

section Laid

variable (laid : x.Laid)
include laid

theorem Laid.half : x.reach < 2 ^ 31 := by
  have room := laid.room
  have most := x.reach_le
  unfold maxReach at room
  omega

/-- Where `m_seq` is, unless the FIN behind it is acknowledged. -/
theorem Laid.off_seq (unacked : x.sentfin = true → x.reach ≠ 0) : x.off x.buf.seq = x.bytes := by
  have half := laid.half
  unfold bytes reach top off at *
  cases fin : x.sentfin with
  | false => simp
  | true =>
      rw [fin] at half unacked
      have ahead := unacked rfl
      simp only [if_true] at half ahead ⊢
      bv_omega

theorem Laid.rewind (inside : x.off a ≤ x.reach) : Laid { x with nxt := a } :=
  { laid with nxt := inside }

/-- `m_snd_nxt` and `m_snd_max` move inside what was queued. -/
theorem Laid.advance {t : Half} (inside : x.off a ≤ x.reach) (inside' : x.off b ≤ x.reach) :
    Laid { x with nxt := a, max := seqMax b x.max, tPersist := t } := by
  have half := laid.half
  have most := laid.max
  have above : x.off (seqMax b x.max) = x.off b ⊔ x.off x.max :=
    off_seqMax (by omega) (by omega)
  refine { laid with nxt := inside, max := ?_, fin := fun sent => ?_, flagged := fun q member up => ?_ }
  · change x.off (seqMax b x.max) ≤ x.reach
    omega
  · obtain ⟨all, rest⟩ := laid.fin sent
    refine ⟨?_, rest⟩
    have top : x.off x.max = x.reach := by
      rw [all]
      rfl
    have same : x.off (seqMax b x.max) = x.off x.top := by
      rw [above, top]
      exact max_eq_right inside'
    exact off_eq_iff.mp same
  · have before := laid.flagged q member up
    change q.place x.una < x.off (seqMax b x.max)
    omega

/-- The FIN goes out, again or for the first time, behind all data. -/
theorem Laid.finish {t : Half} (closing : x.state.isClosing) (none : UdtBuf.opsLen x.ops = 0) :
    Laid { x with
        nxt := x.buf.seq + 1, max := seqMax (x.buf.seq + 1) x.max, sentfin := true, tPersist := t } ∧
      x.reach ≤ ({ x with
        nxt := x.buf.seq + 1, max := seqMax (x.buf.seq + 1) x.max, sentfin := true, tPersist := t } :
        Sender).reach := by
  have unacked : x.sentfin = true → x.reach ≠ 0 := fun sent => (laid.fin sent).2.2.2.2 closing
  have seq := laid.off_seq unacked
  have room := laid.room
  have bound : maxReach = 2147483647 := rfl
  have next : x.off (x.buf.seq + 1) = x.bytes + 1 := by
    unfold off at *
    bv_omega
  have most := laid.max
  have above := x.reach_le
  have raised : seqMax (x.buf.seq + 1) x.max = x.buf.seq + 1 := by
    have same : x.off (seqMax (x.buf.seq + 1) x.max) = x.off (x.buf.seq + 1) := by
      rw [off_seqMax (by omega) (by omega), next]
      exact max_eq_left (by omega)
    exact off_eq_iff.mp same
  have reach : ({ x with
      nxt := x.buf.seq + 1, max := seqMax (x.buf.seq + 1) x.max, sentfin := true, tPersist := t } :
      Sender).reach = x.bytes + 1 := next
  have bytes : ({ x with
      nxt := x.buf.seq + 1, max := seqMax (x.buf.seq + 1) x.max, sentfin := true, tPersist := t } :
      Sender).bytes = x.bytes := by
    rw [Sender.bytes, reach]
    rfl
  have waiting : x.state ≠ .established ∧ x.state ≠ .closeWait := by
    rcases closing with state | state | state <;> rw [state] <;> decide
  refine ⟨?_, by rw [reach]; exact above⟩
  refine { laid with nxt := ?_, max := ?_, queue := ?_, room := ?_, fin := fun _ => ?_, flagged := ?_ }
  · rw [reach]
    exact Nat.le_of_eq next
  · rw [reach]
    change x.off (seqMax (x.buf.seq + 1) x.max) ≤ _
    rw [raised]
    exact Nat.le_of_eq next
  · rw [bytes]
    exact laid.queue
  · rw [bytes]
    exact room
  · refine ⟨raised, none, waiting.1, waiting.2, fun _ => ?_⟩
    rw [reach]
    exact Nat.succ_ne_zero _
  · intro q member up
    have before := laid.flagged q member up
    change q.place x.una < x.off (seqMax (x.buf.seq + 1) x.max)
    rw [raised, next]
    omega

/-- Whole operations move from the user's queue to the end of `snd_buf`. -/
theorem Laid.consume {ops rest : List SendOperation} {b : UdtBuf} {segSize : Nat}
    (small : segSize < 2 ^ 16) (queue : x.ops = ops ++ rest)
    (appended : x.buf.appendOps segSize ops = some b) :
    Laid { x with
        buf := b, ops := rest, pending := x.pending - BitVec.ofNat 32 (UdtBuf.opsLen ops) } ∧
      x.reach ≤ ({ x with
        buf := b, ops := rest, pending := x.pending - BitVec.ofNat 32 (UdtBuf.opsLen ops) } :
        Sender).reach := by
  have grown : UdtBuf.Grown x.una x.buf b _ := UdtBuf.appendOps_grown small appended
  obtain ⟨seq, cc, new, pkts, plain, packed⟩ := grown
  have length : UdtBuf.opsLen x.ops = UdtBuf.opsLen ops + UdtBuf.opsLen rest := by
    simp [UdtBuf.opsLen, queue]
  have room := laid.room
  have pending := laid.pending
  have half := laid.half
  have bound : maxReach = 2147483647 := rfl
  generalize UdtBuf.opsLen ops = n at *
  have reach : ({ x with buf := b, ops := rest, pending := x.pending - BitVec.ofNat 32 n } :
      Sender).reach = x.reach + n := by
    have bytes := x.bytes_le
    unfold Sender.reach Sender.bytes off top at *
    dsimp only
    rw [seq]
    bv_omega
  have bytes : ({ x with buf := b, ops := rest, pending := x.pending - BitVec.ofNat 32 n } :
      Sender).bytes = x.bytes + n := by
    have last := laid.fin
    have fits := x.bytes_le
    rw [Sender.bytes, reach, Sender.bytes]
    cases fin : x.sentfin with
    | false => simp
    | true =>
        obtain ⟨_, none, _⟩ := last fin
        have nothing : n = 0 := by omega
        rw [nothing]
        rfl
  have added : Packed x.una x.bytes (x.bytes + n) new := by
    by_cases nothing : n = 0
    · rw [nothing] at packed ⊢
      obtain rfl : new = [] := (packed (by have := (x.buf.seq - x.una).isLt; omega)).eq_nil
      rfl
    · have unsent : x.sentfin = true → x.reach ≠ 0 := by
        intro fin
        have none := (laid.fin fin).2.1
        omega
      have start := laid.off_seq unsent
      unfold off at start
      rw [start] at packed
      exact packed (by omega)
  refine ⟨?_, by rw [reach]; exact Nat.le_add_right _ _⟩
  refine { laid with
    nxt := ?_, max := ?_, queue := ?_, cc := ?_, pending := ?_, room := ?_, fin := ?_
    flagged := ?_, retrans := ?_ }
  · rw [reach]
    exact laid.nxt.trans (Nat.le_add_right _ _)
  · rw [reach]
    exact laid.max.trans (Nat.le_add_right _ _)
  · rw [bytes]
    change Queued x.una 0 (x.bytes + n) b.pkts
    rw [pkts]
    exact laid.queue.append added.laid
  · have total : 0 + totalLen x.buf.pkts ≤ x.bytes := laid.queue.sum_le
    have more : x.bytes + totalLen new = x.bytes + n := added.sum_eq
    have here := laid.cc
    change b.cc.toNat = totalLen b.pkts
    rw [cc, pkts, totalLen_append]
    generalize totalLen new = m at *
    generalize totalLen x.buf.pkts = k at *
    clear * - total more here room bound length
    bv_omega
  · change (x.pending - BitVec.ofNat 32 n).toNat = UdtBuf.opsLen rest
    bv_omega
  · rw [bytes]
    change x.bytes + n + UdtBuf.opsLen rest < maxReach
    omega
  · intro sent
    obtain ⟨all, none, state⟩ := laid.fin sent
    have nothing : n = 0 := by omega
    refine ⟨?_, (by omega : UdtBuf.opsLen rest = 0), ?_⟩
    · change x.max = b.seq + _
      rw [seq, nothing, all]
      simp [top]
    · rw [reach, nothing]
      exact state
  · intro q member up
    have member : q ∈ x.buf.pkts ++ new := pkts ▸ member
    rcases List.mem_append.mp member with old | fresh
    · exact laid.flagged q old up
    · rw [plain q fresh] at up
      contradiction
  · change x.retransData.toNat = flaggedLen b.pkts
    rw [pkts, flaggedLen_append, flaggedLen_of_plain plain]
    exact laid.retrans

/-- Marks on queued packets come and go with `m_retrans_data`. -/
theorem Laid.remark {pkts : List UdtPacket} {data : Word}
    (same : pkts.map UdtPacket.unflagged = x.buf.pkts.map UdtPacket.unflagged)
    (flagged : ∀ q ∈ pkts, hasRexmt q.hdr.flags = true → q.place x.una < x.off x.max)
    (retrans : data.toNat = flaggedLen pkts) :
    Laid { x with buf.pkts := pkts, retransData := data } :=
  { laid with
    queue := (queued_congr same).mpr laid.queue
    cc := laid.cc.trans (totalLen_congr same).symm
    flagged := flagged
    retrans := retrans }

/-- A packet below `m_snd_max` is marked as sent again. -/
theorem Laid.mark {front back : List UdtPacket} {p : UdtPacket}
    (queue : x.buf.pkts = front ++ p :: back) (plain : hasRexmt p.hdr.flags = false)
    (old : p.place x.una < x.off x.max) :
    Laid { x with
      buf.pkts := front ++ { p with hdr.flags := p.hdr.flags ||| UdtHdr.TH_RETRANS } :: back
      retransData := x.retransData + p.hdr.len.setWidth 32 } := by
  refine laid.remark (by simp [queue, UdtPacket.unflagged]) (fun q member up => ?_) ?_
  · rcases List.mem_append.mp member with before | here
    · exact laid.flagged q (by rw [queue]; exact List.mem_append_left _ before) up
    · rcases List.mem_cons.mp here with rfl | after
      · exact old
      · exact laid.flagged q (by rw [queue]; simp [after]) up
  · have retrans := laid.retrans
    have total := laid.queue.sum_le
    have room := laid.room
    have bound : maxReach = 2147483647 := rfl
    have most := flaggedLen_le x.buf.pkts
    have sum : totalLen x.buf.pkts = (x.buf.pkts.map UdtPacket.span).sum := rfl
    have parts : totalLen x.buf.pkts = totalLen front + (p.hdr.len.toNat + totalLen back) := by
      rw [queue, totalLen_append, totalLen_cons]
    rw [queue, flaggedLen_append, flaggedLen_cons, plain, if_neg Bool.false_ne_true] at retrans
    have left := flaggedLen_le front
    have right := flaggedLen_le back
    rw [flaggedLen_append, flaggedLen_cons, if_pos (hasRexmt_marked _)]
    have less := totalLen_cons p back
    bv_omega

/-- The first packet loses its mark. -/
theorem Laid.unmark {p : UdtPacket} {back : List UdtPacket} (queue : x.buf.pkts = p :: back) :
    Laid { x with
      buf.pkts := { p with hdr.flags := 0 } :: back
      retransData := Endpoint.retransLeft x.retransData p } := by
  have retrans := laid.retrans
  rw [queue] at retrans
  refine laid.remark (by simp [queue, UdtPacket.unflagged]) (fun q member up => ?_) ?_
  · rcases List.mem_cons.mp member with rfl | after
    · rw [hasRexmt_zero] at up
      contradiction
    · exact laid.flagged q (by rw [queue]; exact List.mem_cons_of_mem _ after) up
  · have left := @foldl_retransLeft _ [p] _ retrans
    rw [flaggedLen_cons, if_neg (Bool.eq_false_iff.mp hasRexmt_zero), Nat.zero_add]
    exact left

/-- One packet leaves the queue. -/
theorem Laid.drop {front back : List UdtPacket} {p : UdtPacket}
    (queue : x.buf.pkts = front ++ p :: back) :
    Laid { x with
      buf := x.buf.drop front p back, retransData := Endpoint.retransLeft x.retransData p } := by
  have sub : (front ++ back).Sublist x.buf.pkts := by
    rw [queue]
    exact (List.sublist_cons_self _ _).append_left _
  have cc := laid.cc
  have retrans := laid.retrans
  have small := x.retransData.isLt
  rw [queue, totalLen_append, totalLen_cons] at cc
  rw [queue, flaggedLen_append, flaggedLen_cons] at retrans
  refine { laid with
    queue := laid.queue.sublist sub, cc := ?_
    flagged := fun q member => laid.flagged q (sub.subset member), retrans := ?_ }
  · change (x.buf.cc - p.hdr.len.setWidth 32).toNat = totalLen (front ++ back)
    rw [totalLen_append]
    bv_omega
  · change (Endpoint.retransLeft x.retransData p).toNat = flaggedLen (front ++ back)
    rw [flaggedLen_append]
    unfold Endpoint.retransLeft
    split at retrans
    · next up =>
        rw [if_pos up]
        bv_omega
    · next up =>
        rw [if_neg up]
        omega

/-- New data is acknowledged. An acknowledged FIN has changed the state before. -/
theorem Laid.ack {gone rest : List UdtPacket} (above : seqGt a x.una) (sent : seqLe a x.max)
    (split : x.buf.pkts = gone ++ rest) (kept : ∀ q, rest.head? = some q → seqGe q.hdr.seq a)
    (closing : x.sentfin = true → x.state.isClosing → a ≠ x.max) :
    Laid { x with
      una := a, nxt := if seqLt x.nxt a then a else x.nxt
      buf := x.buf.dropFront gone rest
      retransData := gone.foldl Endpoint.retransLeft x.retransData } := by
  have half := laid.half
  have nxt := laid.nxt
  have max := laid.max
  have near : x.off a < 2 ^ 31 := by
    rw [seqGt_iff] at above
    exact above.2
  have inside : x.off a ≤ x.off x.max := by
    have within := (seqGt_iff_off near (by omega)).not.mp (not_not.mpr sent)
    omega
  have shift : ∀ {b}, x.off a ≤ x.off b → (b - a).toNat + x.off a = x.off b :=
    fun ahead => toNat_rebase ahead
  have reach : (x.top - a).toNat + x.off a = x.reach := shift (inside.trans max)
  have behind : Queued x.una 0 x.bytes rest :=
    laid.queue.sublist (by rw [split]; exact List.sublist_append_right _ _)
  have first : ∀ q, rest.head? = some q → x.off a ≤ q.place x.una := by
    intro q head
    have low := kept q head
    have bounds := behind.mem (List.mem_of_mem_head? head)
    have fits := x.bytes_le
    have order := (seqLt_iff_off (x := x) (a := q.hdr.seq) (b := a)
      (by unfold off UdtPacket.place at *; omega) near).not.mp low
    exact Nat.le_of_not_lt order
  have later : ∀ q ∈ rest, x.off a ≤ q.place x.una := by
    intro q member
    cases rest with
    | nil => contradiction
    | cons r rest =>
        have start := first r rfl
        rcases List.mem_cons.mp member with rfl | after
        · exact start
        · have bounds := behind.2.2.mem after
          omega
  have bytes : (x.top - a).toNat - (if x.sentfin then 1 else 0) = x.bytes - x.off a := by
    rw [Sender.bytes]
    omega
  have queue : Queued a 0 (x.bytes - x.off a) rest := by
    by_cases ahead : x.off a ≤ x.bytes
    · refine (Extents.laid_shift_iff (d := x.off a) fun q member => toNat_rebase (later q member)).mpr ?_
      rw [Nat.zero_add, Nat.sub_add_cancel ahead]
      exact behind.raise first ahead
    · cases rest with
      | nil => exact Nat.zero_le _
      | cons r rest =>
          have start := first r rfl
          have bounds := behind.mem List.mem_cons_self
          omega
  refine { laid with
    nxt := ?_, max := ?_, queue := ?_, cc := ?_, room := ?_, fin := fun fin => ?_
    flagged := fun q member up => ?_, retrans := ?_ }
  · change ((if seqLt x.nxt a then a else x.nxt) - a).toNat ≤ (x.top - a).toNat
    split
    · simp
    · next behind =>
        rw [seqLt_iff_off (by omega) near] at behind
        have moved := shift (Nat.le_of_not_lt behind)
        omega
  · change (x.max - a).toNat ≤ (x.top - a).toNat
    have moved := shift inside
    omega
  · change Queued a 0 ((x.top - a).toNat - _) rest
    rw [bytes]
    exact queue
  · have cc := laid.cc
    change (x.buf.cc - BitVec.ofNat 32 (totalLen gone)).toNat = totalLen rest
    rw [split, totalLen_append] at cc
    bv_omega
  · have room := laid.room
    change (x.top - a).toNat - _ + _ < _
    rw [bytes]
    exact Nat.lt_of_le_of_lt (Nat.add_le_add_right (Nat.sub_le _ _) _) room
  · obtain ⟨all, none, established, waiting, unacked⟩ := laid.fin fin
    refine ⟨all, none, established, waiting, fun closed => ?_⟩
    have other : x.off a ≠ x.off x.max := fun same => closing fin closed (off_eq_iff.mp same)
    have top : x.off x.max = x.reach := by
      rw [all]
      rfl
    change (x.top - a).toNat ≠ 0
    omega
  · have before := laid.flagged q (by rw [split]; exact List.mem_append_right _ member) up
    have moved := shift inside
    have start : q.place a + x.off a = q.place x.una := toNat_rebase (later q member)
    change q.place a < (x.max - a).toNat
    omega
  · have retrans := laid.retrans
    rw [split] at retrans
    exact foldl_retransLeft retrans

/-- Every mark below `m_snd_max` is taken back. -/
theorem Laid.clear : Laid { x with
    buf.pkts := Endpoint.clearFlagsLoop x.max x.buf.pkts, retransData := 0, nxt := x.una } := by
  have half := laid.half
  have max := laid.max
  have plain : ∀ lo pkts, Queued x.una lo x.bytes pkts →
      (∀ q ∈ pkts, hasRexmt q.hdr.flags = true → q.place x.una < x.off x.max) →
      ∀ q ∈ Endpoint.clearFlagsLoop x.max pkts, hasRexmt q.hdr.flags = false := by
    intro lo pkts queued marked
    induction pkts generalizing lo with
    | nil => simp [Endpoint.clearFlagsLoop]
    | cons p rest ih =>
        obtain ⟨here, later⟩ := List.forall_mem_cons.mp marked
        rw [Endpoint.clearFlagsLoop]
        split
        · next unsent =>
            have bounds := queued.mem List.mem_cons_self
            have fits := x.bytes_le
            have order := (seqLt_iff_off (x := x) (a := p.hdr.seq) (b := x.max)
              (by unfold off UdtPacket.place at *; omega) (by omega)).not.mp unsent
            intro q member
            have start := (queued.lower (Nat.zero_le _)).mem member
            rw [Bool.eq_false_iff]
            intro up
            have below := marked q member up
            have after : p.place x.una ≤ q.place x.una := by
              rcases List.mem_cons.mp member with rfl | rear
              · exact Nat.le_refl _
              · have := (queued.2.2.mem rear).1
                omega
            exact order (Nat.lt_of_le_of_lt after below)
        · exact List.forall_mem_cons.mpr ⟨hasRexmt_zero, ih _ queued.2.2 later⟩
  have none := plain 0 _ laid.queue laid.flagged
  refine (laid.remark (Endpoint.clearFlagsLoop_unflagged x.max x.buf.pkts) (fun q member up => ?_)
    ?_).rewind ?_
  · rw [none q member] at up
    contradiction
  · rw [flaggedLen_of_plain none]
    rfl
  · rw [off_una]
    exact Nat.zero_le _

/-- The state of the connection moves on. -/
theorem Laid.move {q : TcpState} (past : ¬ q.inHandshake)
    (fin : x.sentfin = true → q ≠ .established ∧ q ≠ .closeWait ∧ (q.isClosing → x.reach ≠ 0)) :
    Laid { x with state := q } :=
  { laid with
    open_ := past
    fin := fun sent =>
      ⟨(laid.fin sent).1, (laid.fin sent).2.1, (fin sent).1, (fin sent).2.1, (fin sent).2.2⟩ }

theorem Laid.queueOp {op : SendOperation} (unsent : x.sentfin = false)
    (room : x.bytes + x.pending.toNat + op.buf.size < maxReach) :
    Laid { x with
      ops := x.ops ++ [op], pending := x.pending + BitVec.ofNat 32 op.buf.size } := by
  have pending := laid.pending
  have length : UdtBuf.opsLen (x.ops ++ [op]) = UdtBuf.opsLen x.ops + op.buf.size := by
    simp [UdtBuf.opsLen]
  have bound : maxReach = 2147483647 := rfl
  refine { laid with pending := ?_, room := ?_, fin := fun sent => ?_ }
  · change (x.pending + BitVec.ofNat 32 op.buf.size).toNat = UdtBuf.opsLen (x.ops ++ [op])
    rw [length]
    bv_omega
  · change x.bytes + UdtBuf.opsLen (x.ops ++ [op]) < maxReach
    omega
  · exact absurd (unsent.symm.trans sent) Bool.false_ne_true

theorem Laid.cancel : Laid { x with ops := [], pending := 0 } :=
  { laid with
    pending := rfl
    room := Nat.lt_of_le_of_lt (Nat.le_add_right _ _) laid.room
    fin := fun sent =>
      ⟨(laid.fin sent).1, rfl, (laid.fin sent).2.2⟩ }

theorem Laid.limit (v : Word) : Laid { x with buf.hiwat := v } := { laid with }

theorem Laid.persist (t : Half) : Laid { x with tPersist := t } := { laid with }

end Laid

section Fresh

variable (fresh : x.Fresh)
include fresh

/-- The handshake is over and `m_seq` is set; what is acknowledged was numbered last. -/
theorem Fresh.opened {t : Half} (last : x.nxt = x.max) : Laid { x with
    state := .established, connected := true, tPersist := t, buf := x.buf.setInitSeq x.nxt } := by
  have una := fresh.una
  have max := fresh.max
  have top : x.nxt + (if x.sentfin then 1 else 0) = x.max := by
    rw [fresh.sentfin, last]
    simp
  have short : x.off x.max ≤ 1 := by
    unfold off
    bv_omega
  have reach : ({ x with
      state := .established, connected := true, tPersist := t, buf := x.buf.setInitSeq x.nxt } :
      Sender).reach = x.off x.max := congrArg x.off top
  have bytes : ({ x with
      state := .established, connected := true, tPersist := t, buf := x.buf.setInitSeq x.nxt } :
      Sender).bytes = x.off x.max := by
    rw [Sender.bytes, reach, fresh.sentfin]
    rfl
  constructor
  · simp [TcpState.inHandshake]
  · rw [reach]
    exact Nat.le_of_eq (congrArg x.off last)
  · rw [reach]
    exact Nat.le_refl _
  · change Queued x.una 0 _ x.buf.pkts
    rw [fresh.pkts]
    exact Nat.zero_le _
  · change x.buf.cc.toNat = totalLen x.buf.pkts
    rw [fresh.cc, fresh.pkts]
    rfl
  · change x.pending.toNat = UdtBuf.opsLen x.ops
    rw [fresh.pending, fresh.ops]
    rfl
  · rw [bytes]
    change _ + UdtBuf.opsLen x.ops < maxReach
    rw [fresh.ops]
    exact Nat.lt_of_le_of_lt short (by decide)
  · intro sent
    exact absurd (fresh.sentfin.symm.trans sent) Bool.false_ne_true
  · intro q member
    have member : q ∈ x.buf.pkts := member
    rw [fresh.pkts] at member
    contradiction
  · change x.retransData.toNat = flaggedLen x.buf.pkts
    rw [fresh.retrans, fresh.pkts]
    rfl

end Fresh

end Sender

end UdtBoost
