import UdtBoost.Reasm
import UdtBoost.Pieces

/-! Reassembly against a set-based reference: whatever order the segments of a cut
stream arrive in, `rcv_buf` and `reasm_pkts` depend on the set of arrivals only. -/
namespace UdtBoost

/-- What a packet says about the stream. Every retransmitted copy says the same, whatever
its acknowledgement, window and options. -/
structure Segment where
  seq : Word
  len : Half
  data : List UChar
  deriving DecidableEq

def UdtPacket.segment (p : UdtPacket) : Segment := ⟨p.hdr.seq, p.hdr.len, p.data⟩

/-- A stream from `seq` on, cut into nonempty segments. -/
def IsCut : Word → List Segment → Prop
  | _, [] => True
  | seq, g :: rest =>
      g.seq = seq ∧ g.len ≠ 0 ∧ g.data.length = g.len.toNat ∧ IsCut (seq + g.len.setWidth 32) rest

def segmentsLen (gs : List Segment) : Nat := (gs.map (·.len.toNat)).sum

@[simp] theorem segmentsLen_nil : segmentsLen [] = 0 := rfl

@[simp] theorem segmentsLen_cons (g : Segment) (gs : List Segment) :
    segmentsLen (g :: gs) = g.len.toNat + segmentsLen gs := by
  simp [segmentsLen]

@[simp] theorem segmentsLen_append (gs hs : List Segment) :
    segmentsLen (gs ++ hs) = segmentsLen gs + segmentsLen hs := by
  simp [segmentsLen]

@[simp] theorem segmentsLen_map (ps : List UdtPacket) :
    segmentsLen (ps.map UdtPacket.segment) = totalLen ps := by
  simp [segmentsLen, totalLen, UdtPacket.segment, Function.comp_def]

theorem segmentsLen_filter_le (keep : Segment → Bool) (gs : List Segment) :
    segmentsLen (gs.filter keep) ≤ segmentsLen gs :=
  (List.filter_sublist.map (fun g : Segment => g.len.toNat)).sum_le_sum fun _ _ => Nat.zero_le _

theorem IsCut.of_append {seq : Word} {gs hs : List Segment} (cut : IsCut seq (gs ++ hs)) :
    IsCut seq gs ∧ IsCut (seq + BitVec.ofNat 32 (segmentsLen gs)) hs := by
  induction gs generalizing seq with
  | nil => simpa [IsCut] using cut
  | cons g gs ih =>
      obtain ⟨starts, some, whole, later⟩ := cut
      obtain ⟨first, second⟩ := ih later
      refine ⟨⟨starts, some, whole, first⟩, ?_⟩
      have shift : seq + g.len.setWidth 32 + BitVec.ofNat 32 (segmentsLen gs) =
          seq + BitVec.ofNat 32 (segmentsLen (g :: gs)) := by
        rw [segmentsLen_cons, BitVec.add_assoc]
        congr 1
        bv_omega
      rwa [shift] at second

theorem IsCut.bytes_length {seq : Word} {gs : List Segment} (cut : IsCut seq gs) :
    (gs.flatMap (·.data)).length = segmentsLen gs := by
  induction gs generalizing seq with
  | nil => rfl
  | cons g gs ih =>
      rw [List.flatMap_cons, List.length_append, segmentsLen_cons, ih cut.2.2.2, cut.2.2.1]

/-- A segment of the cut is nonempty and lies inside it. -/
theorem IsCut.offset {seq : Word} {gs : List Segment} (cut : IsCut seq gs)
    (half : segmentsLen gs < 2 ^ 31) {g : Segment} (member : g ∈ gs) :
    0 < g.len.toNat ∧ (g.seq - seq).toNat + g.len.toNat ≤ segmentsLen gs := by
  induction gs generalizing seq with
  | nil => simp at member
  | cons h gs ih =>
      obtain ⟨starts, some, _, later⟩ := cut
      rw [segmentsLen_cons] at half ⊢
      rcases List.mem_cons.mp member with rfl | member
      · have positive : 0 < g.len.toNat := by
          rw [Nat.pos_iff_ne_zero]
          exact fun zero => some (by bv_omega)
        rw [starts, BitVec.sub_self]
        exact ⟨positive, by simp⟩
      · obtain ⟨positive, inside⟩ := ih later (by omega) member
        exact ⟨positive, by bv_omega⟩

/-- Segments of a cut shorter than half the circle are strictly ordered. -/
theorem IsCut.pairwise {seq : Word} {gs : List Segment} (cut : IsCut seq gs)
    (half : segmentsLen gs < 2 ^ 31) : gs.Pairwise (fun g h => seqGt h.seq g.seq) := by
  induction gs generalizing seq with
  | nil => exact .nil
  | cons g gs ih =>
      obtain ⟨starts, some, _, later⟩ := cut
      rw [segmentsLen_cons] at half
      refine .cons ?_ (ih later (by omega))
      intro h member
      obtain ⟨positive, inside⟩ := later.offset (by omega) member
      have long : 0 < g.len.toNat := by
        rw [Nat.pos_iff_ne_zero]
        exact fun zero => some (by bv_omega)
      rw [seqGt_iff, starts]
      bv_omega

/-- Different segments of a cut start at different numbers. -/
theorem IsCut.eq_of_seq {seq : Word} {gs : List Segment} (cut : IsCut seq gs)
    (half : segmentsLen gs < 2 ^ 31) {g h : Segment} (left : g ∈ gs) (right : h ∈ gs)
    (same : g.seq = h.seq) : g = h := by
  have ordered := cut.pairwise half
  clear cut half
  induction ordered with
  | nil => simp at left
  | cons later _ ih =>
      rcases List.mem_cons.mp left with first | first <;>
        rcases List.mem_cons.mp right with second | second
      · rw [first, second]
      · exact absurd (seqLt_of_seqGt (same ▸ first ▸ later h second)) (seqLt_irrefl _)
      · exact absurd (seqLt_of_seqGt (same ▸ second ▸ later g first)) (seqLt_irrefl _)
      · exact ih first second

namespace Endpoint

/-- One arrival: the window test, then reassembly. -/
def arrive (s : Endpoint) (p : UdtPacket) : Endpoint :=
  match s.dropOutOfRcvWndPacket p with
  | (true, s) => s
  | (false, s) => s.TCP_REASS p

/-- Reassembly after the arrivals `seen` of a cut stream, from the state `s` on. -/
structure Reassembled (s : Endpoint) (segs : List Segment) (seen : List UdtPacket)
    (t : Endpoint) (gained : List UdtPacket) : Prop where
  pkts : t.sk.rcvBuf.pkts = s.sk.rcvBuf.pkts ++ gained
  real : ∀ p ∈ gained ++ t.sk.rcvBuf.reasmPkts, p ∈ seen
  delivered : gained.map UdtPacket.segment = Pieces.delivered segs (seen.map UdtPacket.segment)
  waiting : t.sk.rcvBuf.reasmPkts.map UdtPacket.segment =
    Pieces.waiting segs (seen.map UdtPacket.segment)
  rcvNxt : t.cb.rcvNxt = s.cb.rcvNxt + BitVec.ofNat 32 (totalLen gained)
  acc : t.sk.rcvBuf.acc.toNat = s.sk.rcvBuf.acc.toNat - totalLen gained

theorem insertReasm_at {p : UdtPacket} {below above : List UdtPacket}
    (before : ∀ x ∈ below, seqLt x.hdr.seq p.hdr.seq)
    (after : ∀ x, above.head? = some x → ¬ seqLt x.hdr.seq p.hdr.seq ∧ x.hdr.seq ≠ p.hdr.seq) :
    insertReasm p (below ++ above) = some (below ++ p :: above) := by
  rw [insertReasm_append before]
  cases above with
  | nil => rfl
  | cons x above =>
      obtain ⟨less, same⟩ := after x rfl
      rw [insertReasm, if_neg less, if_neg same, Option.map_some]

/-- Insertion into a queue that mirrors the arrived segments of an ordered stream: a known
segment is refused, a new one takes its place in the stream. -/
theorem insertReasm_of_mirror {p : UdtPacket} {q : List UdtPacket}
    {front back arrived : List Segment}
    (ordered : (front ++ p.segment :: back).Pairwise (fun g h => seqGt h.seq g.seq))
    (mirror : q.map UdtPacket.segment = (front ++ p.segment :: back).filter (· ∈ arrived)) :
    (p.segment ∈ arrived → insertReasm p q = none) ∧
      (p.segment ∉ arrived → ∃ q', insertReasm p q = some q' ∧
        q'.map UdtPacket.segment =
          (front ++ p.segment :: back).filter (· ∈ arrived ++ [p.segment])) := by
  have less : ∀ x : UdtPacket, x.segment ∈ front.filter (· ∈ arrived) →
      seqLt x.hdr.seq p.hdr.seq := by
    intro x member
    obtain ⟨_, _, across⟩ := List.pairwise_append.mp ordered
    exact seqLt_of_seqGt
      (across x.segment (List.mem_filter.mp member).1 p.segment List.mem_cons_self)
  constructor
  · intro known
    rw [List.filter_append, List.filter_cons_of_pos (by simpa using known)] at mirror
    obtain ⟨below, rest, rfl, low, high⟩ := List.map_eq_append_iff.mp mirror
    obtain ⟨x, above, rfl, twin, _⟩ := List.map_eq_cons_iff.mp high
    have same : x.hdr.seq = p.hdr.seq := congrArg Segment.seq twin
    have before : ∀ y ∈ below, seqLt y.hdr.seq p.hdr.seq :=
      fun y member => less y (low ▸ List.mem_map_of_mem member)
    rw [insertReasm_append before, insertReasm, if_neg (same ▸ seqLt_irrefl _), if_pos same,
      Option.map_none]
  · intro new
    have once : (front ++ p.segment :: back).Nodup := by
      refine ordered.imp ?_
      rintro g _ above rfl
      exact seqLt_irrefl g.seq (seqLt_of_seqGt above)
    obtain ⟨old, inserted⟩ := Pieces.filter_insert new once
    rw [old] at mirror
    obtain ⟨below, above, rfl, low, high⟩ := List.map_eq_append_iff.mp mirror
    refine ⟨below ++ p :: above, insertReasm_at ?_ ?_, ?_⟩
    · exact fun y member => less y (low ▸ List.mem_map_of_mem member)
    · intro x head
      have member : x.segment ∈ back := by
        have : x.segment ∈ above.map UdtPacket.segment :=
          List.mem_map_of_mem (List.mem_of_mem_head? head)
        rw [high] at this
        exact (List.mem_filter.mp this).1
      obtain ⟨_, tail, _⟩ := List.pairwise_append.mp ordered
      have later : seqGt x.hdr.seq p.hdr.seq := (List.pairwise_cons.mp tail).1 x.segment member
      exact ⟨not_seqLt_of_seqGt later, fun same => seqLt_irrefl _ (same ▸ seqLt_of_seqGt later)⟩
    · rw [List.map_append, List.map_cons, low, high, inserted]

/-- A queue that mirrors the arrived segments of the rest of the stream splits where the
stream's first missing segment is. -/
theorem run_is_delivered {seq : Word} {segs more : List Segment} {run kept : List UdtPacket}
    (cut : IsCut seq segs) (half : segmentsLen segs < 2 ^ 31)
    (mirror : (run ++ kept).map UdtPacket.segment = segs.filter (· ∈ more))
    (contiguous : Contiguous seq run)
    (stuck : ∀ x, kept.head? = some x → x.hdr.seq ≠ seq + BitVec.ofNat 32 (totalLen run)) :
    run.map UdtPacket.segment = Pieces.delivered segs more ∧
      kept.map UdtPacket.segment = Pieces.waiting segs more := by
  induction segs generalizing seq run with
  | nil =>
      obtain ⟨rfl, rfl⟩ : run = [] ∧ kept = [] := by simpa using mirror
      exact ⟨rfl, rfl⟩
  | cons g segs ih =>
      have long := (cut.offset half (List.mem_cons_self (a := g))).1
      obtain ⟨starts, some, whole, later⟩ := cut
      rw [segmentsLen_cons] at half
      by_cases here : g ∈ more
      case pos =>
        rw [List.filter_cons_of_pos (by simpa using here)] at mirror
        cases run with
        | nil =>
            cases kept with
            | nil => simp at mirror
            | cons x kept =>
                have first : x.segment = g := by simpa using (List.cons.inj mirror).1
                refine absurd ?_ (stuck x rfl)
                simpa [UdtPacket.segment, ← first] using starts
        | cons x run =>
            obtain ⟨first, tail⟩ := List.cons.inj mirror
            have len : g.len = x.hdr.len := by rw [← first, UdtPacket.segment]
            have shift : seq + x.hdr.len.setWidth 32 + BitVec.ofNat 32 (totalLen run) =
                seq + BitVec.ofNat 32 (totalLen (x :: run)) := by
              rw [totalLen_cons, BitVec.add_assoc]
              congr 1
              bv_omega
            rw [len] at later
            obtain ⟨one, two⟩ := ih later (by omega) tail contiguous.2 (by rwa [shift])
            simp only [Pieces.delivered, Pieces.waiting, Pieces.rest, List.map_cons, first, here,
              List.takeWhile_cons, List.dropWhile_cons, decide_true, if_true] at one two ⊢
            exact ⟨by rw [one], two⟩
      case neg =>
        rw [List.filter_cons_of_neg (by simpa using here)] at mirror
        have nil : run = [] := by
          cases run with
          | nil => rfl
          | cons x run =>
              have member : x.segment ∈ segs := by
                have : x.segment ∈ segs.filter (· ∈ more) := by rw [← mirror]; simp
                exact (List.mem_filter.mp this).1
              have gap := later.offset (by omega) member
              have same : x.segment.seq = seq := contiguous.1
              rw [same] at gap
              bv_omega
        subst nil
        have all : kept.map UdtPacket.segment = segs.filter (· ∈ more) := mirror
        simp [Pieces.delivered, Pieces.waiting, Pieces.rest, here, all]

/-- The window test lets a segment of the stream through exactly when it is not delivered. -/
theorem outOfRcvWnd_of_cut {t : Endpoint} {p : UdtPacket} {start : Word} {done todo : List Segment}
    (cut : IsCut start (done ++ todo)) (next : t.cb.rcvNxt = start + BitVec.ofNat 32 (segmentsLen done))
    (room : segmentsLen todo ≤ t.sk.rcvBuf.acc.toNat)
    (half : segmentsLen done + t.sk.rcvBuf.acc.toNat < 2 ^ 31)
    (noSyn : hasSyn p.hdr.flags = false) (wnd : t.cb.rcvWnd = t.rcvWindow) :
    (p.segment ∈ done → t.outOfRcvWnd p.hdr = true) ∧
      (p.segment ∈ todo → t.outOfRcvWnd p.hdr = false) := by
  obtain ⟨first, second⟩ := cut.of_append
  have seq : p.segment.seq = p.hdr.seq := rfl
  have len : p.segment.len = p.hdr.len := rfl
  have signed : t.sk.rcvBuf.acc.toInt = t.sk.rcvBuf.acc.toNat := by
    rw [BitVec.toInt_eq_toNat_of_lt]
    omega
  have edge : t.sk.rcvBuf.acc.toInt ≤ t.cb.rcvWnd.toInt := by
    rw [wnd, Conn.rcvWindow]
    split <;> split <;> simp_all <;> omega
  have start : p.hdr.seq + synLen p.hdr.flags = p.hdr.seq := by simp [synLen, noSyn]
  rw [Bool.eq_false_iff, Ne, Conn.outOfRcvWnd_iff, start, seqGt_iff, seqGt_iff]
  constructor
  · intro member
    obtain ⟨long, inside⟩ := first.offset (by omega) member
    rw [seq, len] at inside
    rw [len] at long
    left
    rw [next]
    bv_omega
  · intro member
    obtain ⟨long, inside⟩ := second.offset (by omega) member
    rw [← next, seq, len] at inside
    rw [len] at long
    have wide : t.sk.rcvBuf.acc.toNat ≤ t.cb.rcvWnd.toNat ∧ t.cb.rcvWnd.toNat < 2 ^ 31 := by
      rw [signed, BitVec.toInt_eq_toNat_cond] at edge
      split at edge <;> omega
    bv_omega

/-- The stream as the receiver sees it: the delivered part, and the rest from `m_rcv_nxt` on. -/
theorem Reassembled.cut {s t : Endpoint} {segs : List Segment} {seen gained : List UdtPacket}
    (h : s.Reassembled segs seen t gained) (cut : IsCut s.cb.rcvNxt segs) :
    segs = gained.map UdtPacket.segment ++ Pieces.rest segs (seen.map UdtPacket.segment) ∧
      IsCut t.cb.rcvNxt (Pieces.rest segs (seen.map UdtPacket.segment)) := by
  have all := Pieces.delivered_append_rest segs (seen.map UdtPacket.segment)
  rw [← h.delivered] at all
  have parts := cut
  rw [← all] at parts
  refine ⟨all.symm, ?_⟩
  rw [h.rcvNxt, ← segmentsLen_map]
  exact parts.of_append.2

/-- Dropping a packet, or refusing one whose segment is known, changes nothing that counts. -/
theorem Reassembled.again {s t t' : Endpoint} {segs : List Segment} {seen gained : List UdtPacket}
    {p : UdtPacket} (h : s.Reassembled segs seen t gained)
    (known : p.segment ∈ seen.map UdtPacket.segment) (same : t'.sk.rcvBuf = t.sk.rcvBuf)
    (next : t'.cb.rcvNxt = t.cb.rcvNxt) : s.Reassembled segs (seen ++ [p]) t' gained := by
  obtain ⟨delivered, _, waiting⟩ := Pieces.same_of_mem known segs
  rw [← List.map_singleton (f := UdtPacket.segment), ← List.map_append] at delivered waiting
  refine ⟨by rw [same, h.pkts], ?_, by rw [h.delivered, delivered],
    by rw [same, h.waiting, waiting], by rw [next, h.rcvNxt], by rw [same, h.acc]⟩
  intro x member
  rw [same] at member
  exact List.mem_append_left _ (h.real x member)

theorem arrive_reassembled {s t : Endpoint} {segs : List Segment} {seen gained : List UdtPacket}
    {p : UdtPacket} (h : s.Reassembled segs seen t gained) (cut : IsCut s.cb.rcvNxt segs)
    (fits : segmentsLen segs ≤ s.sk.rcvBuf.acc.toNat) (half : s.sk.rcvBuf.acc.toNat < 2 ^ 31)
    (copy : p.segment ∈ segs) (noSyn : hasSyn p.hdr.flags = false) :
    ∃ gained, s.Reassembled segs (seen ++ [p]) (t.arrive p) gained := by
  obtain ⟨all, todo⟩ := h.cut cut
  have sum : totalLen gained + segmentsLen (Pieces.rest segs (seen.map UdtPacket.segment)) =
      segmentsLen segs := by
    conv_rhs => rw [all, segmentsLen_append, segmentsLen_map]
  have room := h.acc
  have wwnd : t.withRcvWnd.cb.rcvWnd = t.withRcvWnd.rcvWindow := rfl
  have wbuf : t.withRcvWnd.sk.rcvBuf = t.sk.rcvBuf := rfl
  have wnext : t.withRcvWnd.cb.rcvNxt = t.cb.rcvNxt := rfl
  have arrives : t.arrive p = if t.withRcvWnd.outOfRcvWnd p.hdr
      then { t.withRcvWnd with cb.flags.acknow := true } else t.withRcvWnd.TCP_REASS p := by
    rw [arrive, dropOutOfRcvWndPacket_eq]
    cases t.withRcvWnd.outOfRcvWnd p.hdr with
    | true => rfl
    | false => rfl
  generalize t.withRcvWnd = w at wwnd wbuf wnext arrives
  have whole : IsCut s.cb.rcvNxt (gained.map UdtPacket.segment ++
      Pieces.rest segs (seen.map UdtPacket.segment)) := by rwa [← all]
  have window := outOfRcvWnd_of_cut (t := w) (p := p) whole
    (by rw [wnext, h.rcvNxt, segmentsLen_map]) (by rw [wbuf, room]; omega)
    (by rw [wbuf, room, segmentsLen_map]; omega) noSyn wwnd
  have place : p.segment ∈ gained.map UdtPacket.segment ∨
      p.segment ∈ Pieces.rest segs (seen.map UdtPacket.segment) := by
    rwa [all, List.mem_append] at copy
  rcases place with old | fresh
  · -- delivered before: the window test drops it
    have known : p.segment ∈ seen.map UdtPacket.segment := by
      rw [h.delivered] at old
      exact Pieces.mem_of_mem_delivered old
    rw [arrives, window.1 old, if_pos rfl]
    exact ⟨gained, h.again known wbuf wnext⟩
  · rw [arrives, window.2 fresh, if_neg Bool.false_ne_true]
    have small : segmentsLen (Pieces.rest segs (seen.map UdtPacket.segment)) < 2 ^ 31 := by omega
    have inside := (todo.offset small fresh).2
    have queued : ∀ x ∈ t.sk.rcvBuf.reasmPkts, x.segment ∈ seen.map UdtPacket.segment ∧
        x.segment ∈ Pieces.rest segs (seen.map UdtPacket.segment) := by
      intro x member
      have mapped : x.segment ∈ t.sk.rcvBuf.reasmPkts.map UdtPacket.segment :=
        List.mem_map_of_mem member
      rw [h.waiting, Pieces.waiting, List.mem_filter] at mapped
      exact ⟨by simpa using mapped.2, mapped.1⟩
    rcases w.TCP_REASS_spec p with ⟨reason, flags, _, _, result⟩ | ⟨below, above, run, left, stored⟩
    · rcases reason with ⟨below, x, above, queue, _, twin⟩ | ⟨_, _, full⟩
      · -- its start is queued, and starts of a cut are distinct
        have member := queued x (by rw [← wbuf, queue]; simp)
        have same := todo.eq_of_seq small member.2 fresh twin
        refine ⟨gained, h.again (same ▸ member.1) ?_ ?_⟩
        · rw [result, ← wbuf]
        · rw [result, ← wnext]
      · rw [wbuf, room] at full
        have len : p.segment.len = p.hdr.len := rfl
        rw [len] at inside
        omega
    · have took := insertReasm_at stored.before stored.after
      rw [← stored.queue, wbuf] at took
      obtain ⟨front, back, split⟩ := List.append_of_mem fresh
      have mirror := h.waiting
      rw [Pieces.waiting, split] at mirror
      have ordered := todo.pairwise small
      rw [split] at ordered
      obtain ⟨refused, inserted⟩ := insertReasm_of_mirror ordered mirror
      have new : p.segment ∉ seen.map UdtPacket.segment := fun known => by
        rw [refused known] at took
        contradiction
      obtain ⟨queue, placed, mirrored⟩ := inserted new
      obtain rfl := Option.some.inj (placed.symm.trans took)
      rw [← split, stored.split] at mirrored
      have sizes : totalLen run + totalLen left ≤
          segmentsLen (Pieces.rest segs (seen.map UdtPacket.segment)) := by
        rw [← totalLen_append, ← segmentsLen_map, mirrored]
        exact segmentsLen_filter_le _ _
      have ran : (w.takeRun run left).sk.rcvBuf.acc.toNat = _ := acc_takeRun stored.room
      have stuck : ∀ x, left.head? = some x →
          x.hdr.seq ≠ t.cb.rcvNxt + BitVec.ofNat 32 (totalLen run) := by
        intro x head next
        cases left with
        | nil => simp at head
        | cons y left =>
            obtain rfl : y = x := by simpa using head
            have full := stored.stuck (by rw [next, ← wnext]; rfl)
            rw [totalLen_cons] at sizes
            rw [ran, wbuf] at full
            omega
      obtain ⟨gain, stay⟩ := run_is_delivered todo small mirrored (wnext ▸ stored.contiguous) stuck
      have grows : seen.map UdtPacket.segment ⊆ (seen ++ [p]).map UdtPacket.segment := by simp
      have seen_append : seen.map UdtPacket.segment ++ [p.segment] =
          (seen ++ [p]).map UdtPacket.segment := by simp
      rw [seen_append] at gain stay
      obtain ⟨flags, _, _, result⟩ := stored.result
      refine ⟨gained ++ run, ?_, ?_, ?_, ?_, ?_, ?_⟩
      · rw [result, ← List.append_assoc, ← h.pkts, ← wbuf]
        rfl
      · have real : ∀ x ∈ run ++ left, x ∈ seen ++ [p] := by
          intro x member
          rw [← stored.split] at member
          have origin : x ∈ t.sk.rcvBuf.reasmPkts ∨ x = p := by
            rw [← wbuf, stored.queue]
            simp only [List.mem_append, List.mem_cons] at member ⊢
            tauto
          rcases origin with old | rfl
          · exact List.mem_append_left _ (h.real x (List.mem_append_right _ old))
          · simp
        intro x member
        rw [result, List.append_assoc] at member
        rcases List.mem_append.mp member with old | member
        · exact List.mem_append_left _ (h.real x (List.mem_append_left _ old))
        · exact real x member
      · rw [List.map_append, h.delivered, gain, (Pieces.delivered_of_subset grows segs).1]
      · rw [Pieces.waiting_of_subset grows, ← stay, result]
        rfl
      · rw [result, totalLen_append, BitVec.ofNat_add, ← BitVec.add_assoc, ← h.rcvNxt, ← wnext]
        rfl
      · rw [result, totalLen_append, ← Nat.sub_sub, ← room, ← wbuf, ← ran]

/-- Reassembly is a function of the set of arrivals, whatever their order and number. -/
theorem arrivals_reassembled {s : Endpoint} {segs : List Segment} {arrivals : List UdtPacket}
    (cut : IsCut s.cb.rcvNxt segs) (empty : s.sk.rcvBuf.reasmPkts = [])
    (fits : segmentsLen segs ≤ s.sk.rcvBuf.acc.toNat) (half : s.sk.rcvBuf.acc.toNat < 2 ^ 31)
    (copies : ∀ p ∈ arrivals, p.segment ∈ segs ∧ hasSyn p.hdr.flags = false) :
    ∃ gained, s.Reassembled segs arrivals (arrivals.foldl arrive s) gained := by
  induction arrivals using List.reverseRecOn with
  | nil =>
      refine ⟨[], by simp, by simp [empty], ?_, ?_, by simp, by simp⟩
      · cases segs <;> simp [Pieces.delivered]
      · simp [Pieces.waiting, empty]
  | append_singleton arrivals p ih =>
      obtain ⟨gained, h⟩ := ih fun q member => copies q (List.mem_append_left _ member)
      obtain ⟨copy, noSyn⟩ := copies p (by simp)
      rw [List.foldl_append]
      exact arrive_reassembled h cut fits half copy noSyn

/-- After any arrivals of segments of a cut stream that fits, in any order and number:
`rcv_buf` has gained the longest arrived prefix, `m_rcv_nxt` has moved over it, and the
other arrived segments wait in the queue, once each and in increasing order. -/
theorem reassembly_order_independent (s : Endpoint) (segs : List Segment)
    (arrivals : List UdtPacket) (cut : IsCut s.cb.rcvNxt segs)
    (empty : s.sk.rcvBuf.reasmPkts = []) (fits : segmentsLen segs ≤ s.sk.rcvBuf.acc.toNat)
    (half : s.sk.rcvBuf.acc.toNat < 2 ^ 31)
    (copies : ∀ p ∈ arrivals, p.segment ∈ segs ∧ hasSyn p.hdr.flags = false) :
    let t := arrivals.foldl arrive s
    let seen := arrivals.map UdtPacket.segment
    let front := Pieces.delivered segs seen
    (∃ gained, t.sk.rcvBuf.pkts = s.sk.rcvBuf.pkts ++ gained ∧ (∀ p ∈ gained, p ∈ arrivals) ∧
      gained.map UdtPacket.segment = front) ∧
      t.cb.rcvNxt = s.cb.rcvNxt + BitVec.ofNat 32 (front.flatMap (·.data)).length ∧
      (∀ p ∈ t.sk.rcvBuf.reasmPkts, p ∈ arrivals) ∧
      t.sk.rcvBuf.reasmPkts.map UdtPacket.segment = Pieces.waiting segs seen ∧
      t.sk.rcvBuf.reasmPkts.Pairwise (fun p q => seqGt q.hdr.seq p.hdr.seq) := by
  intro t seen front
  obtain ⟨gained, h⟩ := arrivals_reassembled cut empty fits half copies
  obtain ⟨all, todo⟩ := h.cut cut
  have ordered : (t.sk.rcvBuf.reasmPkts.map UdtPacket.segment).Pairwise
      (fun g h => seqGt h.seq g.seq) := by
    rw [h.waiting]
    refine (todo.pairwise ?_).sublist List.filter_sublist
    have sum := congrArg segmentsLen all
    rw [segmentsLen_append] at sum
    omega
  have length : (front.flatMap (·.data)).length = totalLen gained := by
    rw [← segmentsLen_map, h.delivered]
    rw [← Pieces.delivered_append_rest segs seen] at cut
    exact cut.of_append.1.bytes_length
  refine ⟨⟨gained, h.pkts, fun p member => h.real p (List.mem_append_left _ member), h.delivered⟩,
    ?_, fun p member => h.real p (List.mem_append_right _ member), h.waiting, ?_⟩
  · rw [length]
    exact h.rcvNxt
  · exact List.pairwise_map.mp ordered

/-- Two segments, the second one first and again at the end. -/
theorem reassembly_order_independent_reversed :
    ([UdtBuf.alloc 1 [9], UdtBuf.alloc 0 [7], UdtBuf.alloc 1 [9]].foldl arrive
      (init 0 0 0 Env.zero)).cb.rcvNxt = 2 :=
  (reassembly_order_independent (init 0 0 0 Env.zero) [⟨0, 1, [7]⟩, ⟨1, 1, [9]⟩]
    [UdtBuf.alloc 1 [9], UdtBuf.alloc 0 [7], UdtBuf.alloc 1 [9]]
    ⟨rfl, by decide, rfl, rfl, by decide, rfl, trivial⟩ rfl (by decide) (by decide)
    (by decide)).2.1.trans (by decide)

end Endpoint

end UdtBoost
