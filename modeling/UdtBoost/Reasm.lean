import UdtBoost.Run

/-! Runs of packets and what `TCP_REASS` does with them: one description of its two paths,
in terms of the run that leaves the queue for `rcv_buf`. -/
namespace UdtBoost

/-- Payload bytes of a list of packets. -/
def totalLen (ps : List UdtPacket) : Nat := (ps.map (·.hdr.len.toNat)).sum

@[simp] theorem totalLen_nil : totalLen [] = 0 := rfl

@[simp] theorem totalLen_cons (p : UdtPacket) (ps : List UdtPacket) :
    totalLen (p :: ps) = p.hdr.len.toNat + totalLen ps := by
  simp [totalLen]

@[simp] theorem totalLen_append (ps qs : List UdtPacket) :
    totalLen (ps ++ qs) = totalLen ps + totalLen qs := by
  simp [totalLen]

/-- Each packet starts where the one before it ends, the first at `seq`. -/
def Contiguous : Word → List UdtPacket → Prop
  | _, [] => True
  | seq, p :: ps => p.hdr.seq = seq ∧ Contiguous (seq + p.hdr.len.setWidth 32) ps

theorem Contiguous.append {seq : Word} {ps qs : List UdtPacket} (first : Contiguous seq ps)
    (second : Contiguous (seq + BitVec.ofNat 32 (totalLen ps)) qs) :
    Contiguous seq (ps ++ qs) := by
  induction ps generalizing seq with
  | nil => simpa using second
  | cons p ps ih =>
      refine ⟨first.1, ih first.2 ?_⟩
      have shift : seq + p.hdr.len.setWidth 32 + BitVec.ofNat 32 (totalLen ps) =
          seq + BitVec.ofNat 32 (totalLen (p :: ps)) := by
        rw [totalLen_cons, BitVec.add_assoc]
        congr 1
        bv_omega
      rwa [shift]

theorem Contiguous.of_append {seq : Word} {ps qs : List UdtPacket}
    (both : Contiguous seq (ps ++ qs)) :
    Contiguous seq ps ∧ Contiguous (seq + BitVec.ofNat 32 (totalLen ps)) qs := by
  induction ps generalizing seq with
  | nil => simpa [Contiguous] using both
  | cons p ps ih =>
      obtain ⟨starts, later⟩ := both
      obtain ⟨first, second⟩ := ih later
      refine ⟨⟨starts, first⟩, ?_⟩
      have shift : seq + p.hdr.len.setWidth 32 + BitVec.ofNat 32 (totalLen ps) =
          seq + BitVec.ofNat 32 (totalLen (p :: ps)) := by
        rw [totalLen_cons, BitVec.add_assoc]
        congr 1
        bv_omega
      rwa [shift] at second

namespace UdtRcvBuf

/-- A run of packets handed over to `m_pkts`, with `kept` left in the queue. -/
def take (b : UdtRcvBuf) (run kept : List UdtPacket) : UdtRcvBuf where
  cc := b.cc + BitVec.ofNat 32 (totalLen run)
  hiwat := b.hiwat
  lowat := b.lowat
  pkts := b.pkts ++ run
  seq := b.seq
  reasmPkts := kept

end UdtRcvBuf

theorem UdtBuf.append_eq {b : UdtBuf} {p : UdtPacket} :
    b.append p =
      if b.acc.toNat < p.hdr.len.toNat then none
      else some { b with cc := b.cc + p.hdr.len.setWidth 32, pkts := b.pkts ++ [p] } := rfl

/-- How far a SYN moves the start of a packet's payload. -/
def synLen (flags : UChar) : Word := if hasSyn flags then 1 else 0

/-- The window test in modular order: the packet starts before `m_rcv_nxt`, its SYN not
counted, or it ends after the window. -/
theorem Conn.outOfRcvWnd_iff (c : Conn) (ti : UdtHdr) :
    c.outOfRcvWnd ti = true ↔
      seqGt c.cb.rcvNxt (ti.seq + synLen ti.flags) ∨
        seqGt (ti.seq + ti.len.setWidth 32) (c.cb.rcvNxt + c.cb.rcvWnd) := by
  have shift : c.cb.rcvNxt - ti.seq - 1 = c.cb.rcvNxt - (ti.seq + 1) := by bv_omega
  unfold Conn.outOfRcvWnd seqGt Serial.Le synLen
  by_cases syn : hasSyn ti.flags = true
  · simp only [syn, if_true, shift, Bool.or_eq_true, decide_eq_true_eq, not_le]
  · simp only [syn, if_false, Bool.false_eq_true, BitVec.ofNat_eq_ofNat, BitVec.add_zero, Bool.or_eq_true,
      decide_eq_true_eq, not_le]

namespace Endpoint

/-- The state after a run has moved into `rcv_buf`. -/
def takeRun (s : Endpoint) (run kept : List UdtPacket) : Endpoint :=
  { s with
    sk.rcvBuf := s.sk.rcvBuf.take run kept
    cb.rcvNxt := s.cb.rcvNxt + BitVec.ofNat 32 (totalLen run) }

/-- No later packet can follow from the queue: its head starts elsewhere or does not fit. -/
def Stuck (s : Endpoint) : List UdtPacket → Prop
  | [] => True
  | p :: _ => p.hdr.seq = s.cb.rcvNxt → s.sk.rcvBuf.acc.toNat < p.hdr.len.toNat

theorem takeRun_nil (s : Endpoint) (kept : List UdtPacket) :
    s.takeRun [] kept = { s with sk.rcvBuf.reasmPkts := kept } := by
  simp [takeRun, UdtRcvBuf.take]

theorem takeRun_cons (s : Endpoint) (p : UdtPacket) (run kept mid : List UdtPacket) :
    (s.takeRun [p] mid).takeRun run kept = s.takeRun (p :: run) kept := by
  simp only [takeRun, UdtRcvBuf.take, totalLen_cons, totalLen_nil, Nat.add_zero,
    BitVec.ofNat_add, BitVec.add_assoc, List.append_assoc, List.singleton_append]

theorem rcvBuf_append {s : Endpoint} {p : UdtPacket}
    (fits : p.hdr.len.toNat ≤ s.sk.rcvBuf.acc.toNat) :
    s.sk.rcvBuf.append p = some (s.sk.rcvBuf.take [p] s.sk.rcvBuf.reasmPkts) := by
  have room : ¬ s.sk.rcvBuf.toUdtBuf.acc.toNat < p.hdr.len.toNat := by omega
  simp only [UdtRcvBuf.append, UdtBuf.append, room, if_false, Option.map_some, UdtRcvBuf.take,
    totalLen_cons, totalLen_nil, Nat.add_zero, Option.some.injEq]
  congr 3
  bv_omega

theorem rcvBuf_append_refused {s : Endpoint} {p : UdtPacket}
    (full : s.sk.rcvBuf.acc.toNat < p.hdr.len.toNat) : s.sk.rcvBuf.append p = none := by
  simp only [UdtRcvBuf.append, UdtBuf.append, full, if_true, Option.map_none]

theorem acc_takeRun {s : Endpoint} {run kept : List UdtPacket}
    (fits : totalLen run ≤ s.sk.rcvBuf.acc.toNat) :
    (s.takeRun run kept).sk.rcvBuf.acc.toNat = s.sk.rcvBuf.acc.toNat - totalLen run := by
  simp only [takeRun, UdtRcvBuf.take, UdtBuf.acc] at *
  bv_omega

/-- What leaves the queue is a run from `m_rcv_nxt` on that fits; the head of what stays
cannot follow it. -/
theorem mergeLoop_spec (s : Endpoint) (q : List UdtPacket) :
    ∃ run kept, q = run ++ kept ∧ Contiguous s.cb.rcvNxt run ∧
      totalLen run ≤ s.sk.rcvBuf.acc.toNat ∧ s.mergeLoop q = s.takeRun run kept ∧
      (s.takeRun run kept).Stuck kept := by
  induction q generalizing s with
  | nil => exact ⟨[], [], rfl, trivial, Nat.zero_le _, (takeRun_nil s []).symm, trivial⟩
  | cons p rest ih =>
      by_cases next : p.hdr.seq = s.cb.rcvNxt
      case neg =>
        refine ⟨[], p :: rest, rfl, trivial, Nat.zero_le _, ?_, ?_⟩
        · simp only [mergeLoop, next, if_false, takeRun_nil]
        · simp only [takeRun_nil, Stuck, next, false_implies]
      case pos =>
        by_cases fits : p.hdr.len.toNat ≤ s.sk.rcvBuf.acc.toNat
        case neg =>
          refine ⟨[], p :: rest, rfl, trivial, Nat.zero_le _, ?_, ?_⟩
          · simp only [mergeLoop, next, if_true, rcvBuf_append_refused (not_le.mp fits),
              takeRun_nil]
          · simp only [takeRun_nil, Stuck]
            exact fun _ => not_le.mp fits
        case pos =>
          obtain ⟨run, kept, split, contiguous, room, merged, stuck⟩ :=
            ih (s.takeRun [p] s.sk.rcvBuf.reasmPkts)
          have one : totalLen [p] ≤ s.sk.rcvBuf.acc.toNat := by simpa using fits
          rw [acc_takeRun one] at room
          have len : BitVec.ofNat 32 (totalLen [p]) = p.hdr.len.setWidth 32 := by
            rw [totalLen_cons, totalLen_nil, Nat.add_zero]
            bv_omega
          refine ⟨p :: run, kept, by rw [split, List.cons_append], ⟨next, ?_⟩, ?_, ?_, ?_⟩
          · simpa only [takeRun, len] using contiguous
          · rw [totalLen_cons, totalLen_nil] at *
            omega
          · rw [← takeRun_cons s p run kept s.sk.rcvBuf.reasmPkts, ← merged]
            simp only [mergeLoop, next, if_true, rcvBuf_append fits, takeRun, len]
          · rwa [takeRun_cons] at stuck

theorem insertReasm_append {p : UdtPacket} {below : List UdtPacket}
    (less : ∀ x ∈ below, seqLt x.hdr.seq p.hdr.seq) (rest : List UdtPacket) :
    insertReasm p (below ++ rest) = (insertReasm p rest).map (below ++ ·) := by
  induction below with
  | nil => simp
  | cons x below ih =>
      have first := less x List.mem_cons_self
      have tail := ih fun y member => less y (List.mem_cons_of_mem _ member)
      rw [List.cons_append, insertReasm, if_pos first, tail, Option.map_map]
      rfl

/-- The queue is scanned up to the first packet that is not below the new one. -/
theorem insertReasm_spec (p : UdtPacket) (q : List UdtPacket) :
    ∃ below rest, q = below ++ rest ∧ (∀ x ∈ below, seqLt x.hdr.seq p.hdr.seq) ∧
      ((insertReasm p q = none ∧ ∃ x, rest.head? = some x ∧ x.hdr.seq = p.hdr.seq) ∨
        (insertReasm p q = some (below ++ p :: rest) ∧
          ∀ x, rest.head? = some x → ¬ seqLt x.hdr.seq p.hdr.seq ∧ x.hdr.seq ≠ p.hdr.seq)) := by
  induction q with
  | nil => exact ⟨[], [], rfl, by simp, .inr ⟨rfl, by simp⟩⟩
  | cons x q ih =>
      by_cases less : seqLt x.hdr.seq p.hdr.seq
      case pos =>
        obtain ⟨below, rest, split, before, result⟩ := ih
        refine ⟨x :: below, rest, by rw [split, List.cons_append], ?_, ?_⟩
        · exact List.forall_mem_cons.mpr ⟨less, before⟩
        · rcases result with ⟨refused, twin⟩ | ⟨inserted, after⟩
          · exact .inl ⟨by rw [insertReasm, if_pos less, refused, Option.map_none], twin⟩
          · refine .inr ⟨?_, after⟩
            rw [insertReasm, if_pos less, inserted, Option.map_some, List.cons_append]
      case neg =>
        refine ⟨[], x :: q, rfl, by simp, ?_⟩
        by_cases same : x.hdr.seq = p.hdr.seq
        · exact .inl ⟨by rw [insertReasm, if_neg less, if_pos same], x, rfl, same⟩
        · refine .inr ⟨by rw [insertReasm, if_neg less, if_neg same, List.nil_append], ?_⟩
          intro y head
          obtain rfl : x = y := by simpa using head
          exact ⟨less, same⟩

/-- The packet was put among the queued ones and a run left the queue; or `m_pkts` took it
directly, which has the same effect on an empty queue. -/
structure Stored (s : Endpoint) (p : UdtPacket) (s' : Endpoint)
    (below above run kept : List UdtPacket) : Prop where
  queue : s.sk.rcvBuf.reasmPkts = below ++ above
  before : ∀ x ∈ below, seqLt x.hdr.seq p.hdr.seq
  after : ∀ x, above.head? = some x → ¬ seqLt x.hdr.seq p.hdr.seq ∧ x.hdr.seq ≠ p.hdr.seq
  split : below ++ p :: above = run ++ kept
  contiguous : Contiguous s.cb.rcvNxt run
  room : totalLen run ≤ s.sk.rcvBuf.acc.toNat
  stuck : (s.takeRun run kept).Stuck kept
  result : ∃ flags, flags.sentfin = s.cb.flags.sentfin ∧ flags.packetConsumed = true ∧
    s' = { s.takeRun run kept with cb.flags := flags }

/-- The packet left no trace but flags: its start is queued already, or it does not fit. -/
structure Unstored (s : Endpoint) (p : UdtPacket) (s' : Endpoint) : Prop where
  reason : (∃ below x above, s.sk.rcvBuf.reasmPkts = below ++ x :: above ∧
      (∀ y ∈ below, seqLt y.hdr.seq p.hdr.seq) ∧ x.hdr.seq = p.hdr.seq) ∨
    (p.hdr.seq = s.cb.rcvNxt ∧ s.sk.rcvBuf.reasmPkts = [] ∧
      s.sk.rcvBuf.acc.toNat < p.hdr.len.toNat)
  result : ∃ flags, flags.sentfin = s.cb.flags.sentfin ∧
    flags.packetConsumed = s.cb.flags.packetConsumed ∧ s' = { s with cb.flags := flags }

theorem TCP_REASS_spec (s : Endpoint) (p : UdtPacket) :
    s.Unstored p (s.TCP_REASS p) ∨
      ∃ below above run kept, s.Stored p (s.TCP_REASS p) below above run kept := by
  by_cases direct : p.hdr.seq = s.cb.rcvNxt ∧ s.sk.rcvBuf.reasmPkts = []
  case pos =>
    obtain ⟨next, empty⟩ := direct
    by_cases fits : p.hdr.len.toNat ≤ s.sk.rcvBuf.acc.toNat
    case pos =>
      refine .inr ⟨[], [], [p], [], ⟨empty, by simp, by simp, rfl, ⟨next, trivial⟩, ?_, trivial, ?_⟩⟩
      · simpa using fits
      · have len : BitVec.ofNat 32 (totalLen [p]) = p.hdr.len.setWidth 32 := by
          rw [totalLen_cons, totalLen_nil, Nat.add_zero]
          bv_omega
        simp only [TCP_REASS, next, empty, and_self, if_true, rcvBuf_append fits, takeRun, len]
        refine ⟨_, ?_, ?_, rfl⟩ <;> rfl
    case neg =>
      refine .inl ⟨.inr ⟨next, empty, not_le.mp fits⟩, s.cb.flags, rfl, rfl, ?_⟩
      simp only [TCP_REASS, next, empty, and_self, if_true,
        rcvBuf_append_refused (not_le.mp fits)]
  case neg =>
    rw [TCP_REASS, if_neg direct, tcpReass]
    obtain ⟨below, rest, queue, before, result⟩ := insertReasm_spec p s.sk.rcvBuf.reasmPkts
    rcases result with ⟨refused, x, head, same⟩ | ⟨inserted, after⟩
    · obtain ⟨above, rfl⟩ : ∃ above, rest = x :: above := by
        cases rest with
        | nil => simp at head
        | cons y above => exact ⟨above, by rw [show y = x by simpa using head]⟩
      refine .inl ⟨.inl ⟨below, x, above, queue, before, same⟩, ?_⟩
      rw [refused]
      refine ⟨_, ?_, ?_, rfl⟩ <;> rfl
    · obtain ⟨run, kept, split, contiguous, room, merged, stuck⟩ :=
        mergeLoop_spec { s with
          sk.rcvBuf.reasmPkts := below ++ p :: rest, cb.flags.packetConsumed := true }
          (below ++ p :: rest)
      refine .inr ⟨below, rest, run, kept, queue, before, after, split, contiguous, room, stuck, ?_⟩
      simp only [inserted, mergeReasmPkts, merged]
      split
      · refine ⟨_, ?_, ?_, rfl⟩ <;> rfl
      · refine ⟨_, ?_, ?_, rfl⟩ <;> rfl

/-- `m_rcv_wnd` brought up to date. -/
def withRcvWnd (s : Endpoint) : Endpoint := { s with cb.rcvWnd := s.rcvWindow }

theorem dropOutOfRcvWndPacket_eq (s : Endpoint) (p : UdtPacket) :
    s.dropOutOfRcvWndPacket p =
      if s.withRcvWnd.outOfRcvWnd p.hdr then (true, { s.withRcvWnd with cb.flags.acknow := true })
      else (false, s.withRcvWnd) := rfl

end Endpoint

end UdtBoost
