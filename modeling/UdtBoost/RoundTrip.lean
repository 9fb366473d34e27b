import UdtBoost.Options
import UdtBoost.SackRuns

/-! What `compose_options` writes, `handle_options` reads back: the blocks are the highest runs of
the receiver's queue, and the sender drops exactly what lies inside them. -/
namespace UdtBoost

open UdtOption

theorem load32_le32 (x : Word) (rest : List UChar) : load32 (le32 x ++ rest) 0 = x := by
  apply BitVec.eq_of_getLsbD_eq
  intro i hi
  simp only [load32, le32, List.cons_append, List.getD_cons_zero, List.getD_cons_succ,
    BitVec.getLsbD_or, BitVec.getLsbD_shiftLeft, BitVec.getLsbD_setWidth,
    BitVec.getLsbD_ushiftRight]
  interval_cases i <;> simp

theorem load32_drop (mem : List UChar) (k : Nat) : load32 (mem.drop k) 0 = load32 mem k := by
  simp only [load32, List.getD_eq_getElem?_getD, List.getElem?_drop, Nat.add_zero, Nat.zero_add]

theorem load32_of_drop {mem rest : List UChar} {k : Nat} {x : Word}
    (at_ : mem.drop k = le32 x ++ rest) : load32 mem k = x := by
  rw [← load32_drop, at_, load32_le32]

theorem load32_store32 {mem : List UChar} {k : Nat} (x : Word) (inside : k + 4 ≤ mem.length) :
    load32 (store32 mem k x) k = x := by
  have bytes : load32 (store32 mem k x) k = load32 (le32 x ++ []) 0 := by
    simp only [load32, store32, le32, List.getD_eq_getElem?_getD, List.getElem?_set,
      List.length_set]
    simp [show k < mem.length by omega, show k + 1 < mem.length by omega,
      show k + 2 < mem.length by omega, show k + 3 < mem.length by omega]
  rw [bytes, load32_le32]

theorem getD_store32 (mem : List UChar) {i j : Nat} (x : Word) (apart : j < i ∨ i + 4 ≤ j) :
    (store32 mem i x).getD j 0 = mem.getD j 0 := by
  rw [store32, List.getD_eq_getElem?_getD, List.getElem?_set_ne (by omega),
    List.getElem?_set_ne (by omega), List.getElem?_set_ne (by omega),
    List.getElem?_set_ne (by omega), ← List.getD_eq_getElem?_getD]

theorem load32_store32_ne (mem : List UChar) {i j : Nat} (x : Word)
    (apart : i + 4 ≤ j ∨ j + 4 ≤ i) : load32 (store32 mem i x) j = load32 mem j := by
  rw [load32, getD_store32 _ _ (by omega), getD_store32 _ _ (by omega),
    getD_store32 _ _ (by omega), getD_store32 _ _ (by omega), load32]

namespace UdtOptionSack

/-- The blocks as `hton` leaves them in memory. -/
def wire (pairs : List PairSeq) : List UChar :=
  pairs.flatMap fun pr => le32 (htonl pr.1) ++ le32 (htonl pr.2)

theorem wire_length (pairs : List PairSeq) : (wire pairs).length = sizeofPair * pairs.length := by
  induction pairs with
  | nil => rfl
  | cons pr rest ih =>
      have step : wire (pr :: rest) = le32 (htonl pr.1) ++ le32 (htonl pr.2) ++ wire rest := rfl
      rw [step, List.length_append, ih, List.length_cons]
      change 8 + 8 * rest.length = 8 * (rest.length + 1)
      omega

theorem bytes_hton (pairs : List PairSeq) (kind len : UChar) :
    (UdtOptionSack.hton ⟨kind, len, pairs⟩).bytes = [kind, len] ++ wire pairs := by
  rw [bytes, hton, List.flatMap_map]
  rfl

theorem pairSeq_wire {pairs : List PairSeq} {mem rest : List UChar} {ptr : Nat}
    (at_ : mem.drop (ptr + sizeofOption) = wire pairs ++ rest) :
    ∀ i (below : i < pairs.length),
      pairSeq mem ptr i = (htonl pairs[i].1, htonl pairs[i].2) := by
  induction pairs generalizing ptr with
  | nil => exact fun i below => absurd below (Nat.not_lt_zero i)
  | cons pr more ih =>
      have split : wire (pr :: more) ++ rest =
          le32 (htonl pr.1) ++ (le32 (htonl pr.2) ++ (wire more ++ rest)) := by
        have step : wire (pr :: more) = le32 (htonl pr.1) ++ le32 (htonl pr.2) ++ wire more := rfl
        rw [step, List.append_assoc, List.append_assoc]
      rw [split] at at_
      have second : mem.drop (ptr + sizeofOption + 4) =
          le32 (htonl pr.2) ++ (wire more ++ rest) := by
        rw [← List.drop_drop, at_]
        rfl
      have next : mem.drop (ptr + sizeofPair + sizeofOption) = wire more ++ rest := by
        have place : ptr + sizeofPair + sizeofOption = ptr + sizeofOption + 4 + 4 := by
          change ptr + 8 + 2 = ptr + 2 + 4 + 4
          omega
        rw [place, ← List.drop_drop, second]
        rfl
      intro i below
      cases i with
      | zero =>
          exact Prod.ext (load32_of_drop at_) (load32_of_drop second)
      | succ i =>
          have shift : pairSeq mem ptr (i + 1) = pairSeq mem (ptr + sizeofPair) i := by
            have place : ptr + sizeofOption + sizeofPair * (i + 1) =
                ptr + sizeofPair + sizeofOption + sizeofPair * i := by
              change ptr + 2 + 8 * (i + 1) = ptr + 8 + 2 + 8 * i
              omega
            rw [pairSeq, pairSeq, place]
          rw [shift]
          exact ih next i (Nat.lt_of_succ_lt_succ below)

theorem pairSeq_ntoh_above (mem : List UChar) (ptr : Nat) {n i : Nat} (above : n ≤ i) :
    pairSeq (ntoh mem ptr n) ptr i = pairSeq mem ptr i := by
  induction n with
  | zero => rfl
  | succ n ih =>
      have first : ptr + sizeofOption + sizeofPair * n + 8 ≤
          ptr + sizeofOption + sizeofPair * i := by
        change ptr + 2 + 8 * n + 8 ≤ ptr + 2 + 8 * i
        omega
      rw [← ih (by omega), ntoh]
      generalize ntoh mem ptr n = mem'
      rw [pairSeq, pairSeq, load32_store32_ne _ _ (by omega), load32_store32_ne _ _ (by omega),
        load32_store32_ne _ _ (by omega), load32_store32_ne _ _ (by omega)]

theorem pairSeq_ntoh {mem : List UChar} {ptr n i : Nat}
    (inside : ptr + sizeofOption + sizeofPair * n ≤ mem.length) (below : i < n) :
    pairSeq (ntoh mem ptr n) ptr i =
      (ntohl (pairSeq mem ptr i).1, ntohl (pairSeq mem ptr i).2) := by
  induction n with
  | zero => contradiction
  | succ n ih =>
      have wide : ptr + sizeofOption + sizeofPair * n + 8 ≤ mem.length := inside
      rw [ntoh]
      by_cases last : i = n
      · subst last
        have same := pairSeq_ntoh_above mem ptr (Nat.le_refl i)
        have length := ntoh_length mem ptr i
        rw [← same]
        generalize ntoh mem ptr i = mem' at length
        rw [pairSeq, pairSeq, load32_store32_ne _ _ (by omega), load32_store32 _ (by omega),
          load32_store32 _ (by rw [store32_length]; omega)]
      · have gap : ptr + sizeofOption + sizeofPair * i + 8 ≤ ptr + sizeofOption + sizeofPair * n := by
          change ptr + 2 + 8 * i + 8 ≤ ptr + 2 + 8 * n
          omega
        rw [← ih (by omega) (by omega)]
        generalize ntoh mem ptr n = mem'
        rw [pairSeq, pairSeq, load32_store32_ne _ _ (by omega), load32_store32_ne _ _ (by omega),
          load32_store32_ne _ _ (by omega), load32_store32_ne _ _ (by omega)]

/-- `ntoh` on what `hton` wrote gives the blocks back. -/
theorem ntoh_wire {pairs : List PairSeq} {mem rest : List UChar} {ptr : Nat}
    (at_ : mem.drop (ptr + sizeofOption) = wire pairs ++ rest) :
    (List.range pairs.length).map (pairSeq (ntoh mem ptr pairs.length) ptr) = pairs := by
  refine List.ext_getElem (by simp) fun i _ below => ?_
  have whole := congrArg List.length at_
  rw [List.length_drop, List.length_append, wire_length] at whole
  have some_ : 0 < sizeofPair * pairs.length := Nat.mul_pos (by decide) (by omega)
  rw [List.getElem_map, List.getElem_range, pairSeq_ntoh (by omega) below, pairSeq_wire at_ i below,
    ntohl_htonl, ntohl_htonl]

end UdtOptionSack

/-- The packets lie one behind the other in the half of the circle from `o` on. -/
structure Arranged (o : Word) (q : List UdtPacket) : Prop where
  half : ∀ p ∈ q, (p.extent o).2 < 2 ^ 31
  order : q.Pairwise fun p p' => (p.extent o).2 ≤ (p'.extent o).1

/-- The packet's bytes lie in the block. -/
def UdtPacket.Within (b : PairSeq) (p : UdtPacket) : Prop :=
  (p.hdr.seq - b.1).toNat + p.hdr.len.toNat ≤ (b.2 - b.1).toNat

instance (b : PairSeq) (p : UdtPacket) : Decidable (p.Within b) :=
  inferInstanceAs (Decidable (_ ≤ _))

section Edges

variable {o : Word} {b : PairSeq} {p : UdtPacket}

theorem extent_valid (o : Word) (p : UdtPacket) : (p.extent o).1 ≤ (p.extent o).2 :=
  Nat.le_add_right _ _

theorem within_iff (half : (p.extent o).2 < 2 ^ 31) (valid : pos o b.1 ≤ pos o b.2)
    (small : pos o b.2 < 2 ^ 31) :
    p.Within b ↔ pos o b.1 ≤ (p.extent o).1 ∧ (p.extent o).2 ≤ pos o b.2 := by
  unfold UdtPacket.Within UdtPacket.extent pos at *
  bv_omega

theorem seqLt_iff_extent (half : (p.extent o).2 < 2 ^ 31) (small : pos o b.1 < 2 ^ 31) :
    seqLt p.hdr.seq b.1 ↔ (p.extent o).1 < pos o b.1 := by
  rw [seqLt_iff]
  unfold UdtPacket.extent pos at *
  bv_omega

theorem seqLe_iff_extent (half : (p.extent o).2 < 2 ^ 31) (small : pos o b.2 < 2 ^ 31) :
    seqLe p.endSeq b.2 ↔ (p.extent o).2 ≤ pos o b.2 := by
  rw [seqLe_iff]
  unfold UdtPacket.extent UdtPacket.endSeq pos at *
  bv_omega

theorem Arranged.sublist {q q' : List UdtPacket} (arranged : Arranged o q) (sub : q'.Sublist q) :
    Arranged o q' :=
  ⟨fun p member => arranged.half p (sub.subset member), arranged.order.sublist sub⟩

end Edges

namespace Endpoint

/-- Other packets wait, and the window stayed as it was. -/
structure Sweeps (s s' : Endpoint) (pkts : List UdtPacket) : Prop where
  pkts : s'.sk.sndBuf.pkts = pkts
  fack : s'.cb.sndFack = s.cb.sndFack
  pcwnd : s'.cb.pcwnd = s.cb.pcwnd

theorem Sweeps.trans {s t u : Endpoint} {pkts pkts' : List UdtPacket} (first : s.Sweeps t pkts)
    (second : t.Sweeps u pkts') : s.Sweeps u pkts' :=
  ⟨second.pkts, second.fack.trans first.fack, second.pcwnd.trans first.pcwnd⟩

theorem dropSndPkt_sweeps (s : Endpoint) (front back : List UdtPacket) (p : UdtPacket) :
    s.Sweeps (s.dropSndPkt front p back) (front ++ back) := by
  refine ⟨s.dropSndPkt_pkts front back p, ?_, ?_⟩
  all_goals
    unfold dropSndPkt
    dsimp only
    split <;> rfl

section Sweep

variable {o : Word}

/-- One block takes the iterator past what lies before its end, and drops what lies inside. -/
theorem sackBlock_sweeps (s : Endpoint) {b : PairSeq} (front back : List UdtPacket)
    (queue : s.sk.sndBuf.pkts = front ++ back) (arranged : Arranged o back)
    (valid : pos o b.1 ≤ pos o b.2) (small : pos o b.2 < 2 ^ 31) :
    ∃ passed rest s', back = passed ++ rest ∧
      s.sackBlock b.1 b.2 front back = (front ++ passed.filter (¬ ·.Within b), rest, s') ∧
      s.Sweeps s' (front ++ passed.filter (¬ ·.Within b) ++ rest) ∧
      (∀ p ∈ passed, (p.extent o).1 < pos o b.1 ∨ (p.extent o).2 ≤ pos o b.2) ∧
      ∀ p ∈ rest, ¬ p.Within b := by
  induction back generalizing s front with
  | nil => exact ⟨[], [], s, rfl, by simp [sackBlock], ⟨by simp [queue], rfl, rfl⟩, by simp, by simp⟩
  | cons p back ih =>
      have half := arranged.half p List.mem_cons_self
      have tail := arranged.sublist (List.sublist_cons_self p back)
      have within := within_iff half valid small
      have below := seqLt_iff_extent (b := b) half (valid.trans_lt small)
      have covered := seqLe_iff_extent (b := b) half small
      rw [sackBlock]
      by_cases before : seqLt p.hdr.seq b.1
      · rw [if_pos before]
        rw [below] at before
        have kept : ¬ p.Within b := by
          rw [within]
          omega
        obtain ⟨passed, rest, s', split, result, sweeps, reached, outside⟩ :=
          ih s (front ++ [p]) (by rw [queue, List.append_assoc, List.singleton_append]) tail
        have list : front ++ (p :: passed).filter (¬ ·.Within b) =
            front ++ [p] ++ passed.filter (¬ ·.Within b) := by
          rw [List.filter_cons_of_pos (by simpa using kept), List.append_assoc,
            List.singleton_append]
        refine ⟨p :: passed, rest, s', by rw [split, List.cons_append], ?_, ?_, ?_, outside⟩
        · rw [list, result]
        · rw [list]
          exact sweeps
        · exact List.forall_mem_cons.mpr ⟨.inl before, reached⟩
      rw [if_neg before]
      rw [below] at before
      by_cases inside : seqLe p.endSeq b.2
      · rw [if_pos inside]
        rw [covered] at inside
        have dropped : p.Within b := within.mpr ⟨by omega, inside⟩
        obtain ⟨passed, rest, s', split, result, sweeps, reached, outside⟩ :=
          ih (s.dropSndPkt front p back) front (s.dropSndPkt_pkts front back p) tail
        have list : (p :: passed).filter (¬ ·.Within b) = passed.filter (¬ ·.Within b) :=
          List.filter_cons_of_neg (by simpa using dropped)
        refine ⟨p :: passed, rest, s', by rw [split, List.cons_append], ?_, ?_, ?_, outside⟩
        · rw [list, result]
        · rw [list]
          exact (s.dropSndPkt_sweeps front back p).trans sweeps
        · exact List.forall_mem_cons.mpr ⟨.inr inside, reached⟩
      · rw [if_neg inside]
        rw [covered] at inside
        refine ⟨[], p :: back, s, rfl, by simp, ⟨by simp [queue], rfl, rfl⟩, by simp, ?_⟩
        refine List.forall_mem_cons.mpr ⟨fun contained => inside (within.mp contained).2, ?_⟩
        intro q later contained
        have order := (List.pairwise_cons.mp arranged.order).1 q later
        have stop := ((within_iff (tail.half q later) valid small).mp contained).2
        have start := extent_valid o q
        omega

/-- What the blocks are to the sender: runs one behind the other, from the lowest up. -/
structure Rising (o : Word) (rs : List PairSeq) : Prop where
  valid : ∀ b ∈ rs, pos o b.1 ≤ pos o b.2
  half : ∀ b ∈ rs, pos o b.2 < 2 ^ 31
  gaps : rs.Pairwise fun b c => pos o b.2 < pos o c.1

theorem sackBlocks_sweeps (s : Endpoint) {rs : List PairSeq} (front back : List UdtPacket)
    (queue : s.sk.sndBuf.pkts = front ++ back) (arranged : Arranged o back) (rising : Rising o rs) :
    s.Sweeps (s.sackBlocks front back rs)
      (front ++ back.filter fun p => ∀ b ∈ rs, ¬ p.Within b) := by
  induction rs generalizing s front back with
  | nil => exact ⟨by simp [sackBlocks, queue], rfl, rfl⟩
  | cons b rs ih =>
      obtain ⟨valid, others⟩ := List.forall_mem_cons.mp rising.valid
      obtain ⟨half, halves⟩ := List.forall_mem_cons.mp rising.half
      obtain ⟨above, gaps⟩ := List.pairwise_cons.mp rising.gaps
      obtain ⟨passed, rest, s', rfl, result, sweeps, reached, outside⟩ :=
        s.sackBlock_sweeps front back queue arranged valid half
      have later := ih s' (front ++ passed.filter (¬ ·.Within b)) rest sweeps.pkts
        (arranged.sublist (List.sublist_append_right passed rest)) ⟨others, halves, gaps⟩
      have first : passed.filter (fun p => ∀ c ∈ b :: rs, ¬ p.Within c) =
          passed.filter (¬ ·.Within b) := by
        refine List.filter_congr fun p member => decide_eq_decide.mpr ?_
        rw [List.forall_mem_cons, and_iff_left_iff_imp]
        intro _ c block contained
        have start := ((within_iff (arranged.half p (List.mem_append_left _ member))
          (others c block) (halves c block)).mp contained).1
        have gap := above c block
        have order := extent_valid o p
        rcases reached p member with before | inside <;> omega
      have second : rest.filter (fun p => ∀ c ∈ b :: rs, ¬ p.Within c) =
          rest.filter fun p => ∀ c ∈ rs, ¬ p.Within c := by
        refine List.filter_congr fun p member => decide_eq_decide.mpr ?_
        rw [List.forall_mem_cons, and_iff_right_iff_imp]
        exact fun _ => outside p member
      rw [sackBlocks, result, List.filter_append, first, second, ← List.append_assoc]
      exact sweeps.trans later

theorem Rising.sublist {rs rs' : List PairSeq} (rising : Rising o rs) (sub : rs'.Sublist rs) :
    Rising o rs' :=
  ⟨fun b member => rising.valid b (sub.subset member),
    fun b member => rising.half b (sub.subset member), rising.gaps.sublist sub⟩

/-- `m_snd_fack` after blocks that start with the highest. -/
def followed (fack : Word) : List PairSeq → Word
  | [] => fack
  | b :: _ => if seqLt fack b.2 then b.2 else fack

theorem handleOptionSack_sweeps (s : Endpoint) {rs : List PairSeq}
    (arranged : Arranged o s.sk.sndBuf.pkts) (rising : Rising o rs.reverse) :
    (s.handleOptionSack rs).sk.sndBuf.pkts =
        s.sk.sndBuf.pkts.filter (fun p => ∀ b ∈ rs, ¬ p.Within b) ∧
      (s.handleOptionSack rs).cb.sndFack = followed s.cb.sndFack rs ∧
      (s.handleOptionSack rs).cb.pcwnd = s.cb.pcwnd := by
  cases rs with
  | nil => exact ⟨by simp [handleOptionSack], rfl, rfl⟩
  | cons b rs =>
      have sweeps := sackBlocks_sweeps { s with cb := s.cb.updateSndFack b.2 } []
        s.sk.sndBuf.pkts rfl arranged rising
      have blocks : ∀ p : UdtPacket, (∀ c ∈ (b :: rs).reverse, ¬ p.Within c) ↔
          ∀ c ∈ b :: rs, ¬ p.Within c := fun p => by simp only [List.mem_reverse]
      refine ⟨?_, ?_, ?_⟩
      · rw [handleOptionSack]
        refine sweeps.pkts.trans ((List.nil_append _).trans ?_)
        exact List.filter_congr fun p _ => decide_eq_decide.mpr (blocks p)
      · refine sweeps.fack.trans ?_
        unfold UdtCb.updateSndFack followed
        dsimp only
        split <;> rfl
      · refine sweeps.pcwnd.trans ?_
        unfold UdtCb.updateSndFack
        dsimp only
        split <;> rfl

end Sweep

end Endpoint

section Queue

variable {o : Word} {q : List UdtPacket}

theorem Arranged.ascending (arranged : Arranged o q) (full : ∀ p ∈ q, 0 < p.hdr.len.toNat) :
    Runs.Ascending (q.map (UdtPacket.extent o)) := by
  constructor
  · intro a member
    obtain ⟨p, _, rfl⟩ := List.mem_map.mp member
    exact extent_valid o p
  · refine List.pairwise_map.mpr (arranged.order.imp_of_mem fun {p p'} first _ order => ?_)
    have some_ := full p first
    exact (Nat.lt_add_of_pos_right some_).trans_le order

theorem Arranged.tidy (arranged : Arranged o q) (full : ∀ p ∈ q, 0 < p.hdr.len.toNat) :
    Runs.Tidy (q.map (UdtPacket.extent o)) := by
  have filled : ∀ a ∈ q.map (UdtPacket.extent o), a.1 < a.2 := by
    intro a member
    obtain ⟨p, queued, rfl⟩ := List.mem_map.mp member
    exact Nat.lt_add_of_pos_right (full p queued)
  constructor
  · exact fun a first => filled a (List.mem_of_mem_head? first)
  · refine List.Pairwise.isChain (List.pairwise_map.mpr ?_)
    refine arranged.order.imp_of_mem fun {p p'} _ second order => ?_
    rcases order.eq_or_lt with touching | gap
    · exact .inl touching
    · exact .inr ⟨gap, filled _ (List.mem_map_of_mem second)⟩

/-- The runs of a queue of nonempty segments lie one behind the other. -/
theorem Arranged.rising (arranged : Arranged o q) (full : ∀ p ∈ q, 0 < p.hdr.len.toNat) :
    Endpoint.Rising o (Runs.runs (q.map UdtPacket.block)) := by
  have separate := (Runs.separate_runs_iff (arranged.ascending full)).mpr (arranged.tidy full)
  rw [← runs_places arranged.half] at separate
  refine ⟨fun b member => ?_, fun b member => ?_, ?_⟩
  · exact (separate.nonempty _ (List.mem_map_of_mem member)).le
  · have place := List.mem_map_of_mem (f := Prod.map (pos o) (pos o)) member
    rw [runs_places arranged.half] at place
    obtain ⟨_, a, queued, stop⟩ := Runs.runs_edges place
    obtain ⟨p, packet, rfl⟩ := List.mem_map.mp queued
    exact stop.trans_lt (arranged.half p packet)
  · exact List.pairwise_map.mp separate.gaps

theorem Arranged.shift {a : Word} (arranged : Arranged o q)
    (first : ∀ p ∈ q, pos o a ≤ (p.extent o).1) : Arranged a q := by
  have place : ∀ p ∈ q, p.extent a = ((p.extent o).1 - pos o a, (p.extent o).2 - pos o a) := by
    intro p member
    have half := arranged.half p member
    have after := first p member
    refine Prod.ext ?_ ?_
    all_goals
      unfold UdtPacket.extent pos at *
      bv_omega
  constructor
  · intro p member
    rw [place p member]
    exact (Nat.sub_le _ _).trans_lt (arranged.half p member)
  · refine arranged.order.imp_of_mem fun {p p'} member member' order => ?_
    rw [place p member, place p' member']
    exact Nat.sub_le_sub_right order _

theorem Arranged.origin (arranged : Arranged o q) : Arranged (origin q) q := by
  cases q with
  | nil => exact ⟨by simp, .nil⟩
  | cons p q =>
      refine arranged.shift (List.forall_mem_cons.mpr ⟨le_rfl, fun p' later => ?_⟩)
      exact (extent_valid o p).trans ((List.pairwise_cons.mp arranged.order).1 p' later)

theorem Arranged.ordered (arranged : Arranged o q) (full : ∀ p ∈ q, 0 < p.hdr.len.toNat) :
    Ordered q := by
  refine List.Pairwise.isChain (arranged.order.imp_of_mem fun {p p'} first second order => ?_)
  have low := arranged.half p first
  have high := arranged.half p' second
  have some_ := full p first
  rw [seqLt_iff]
  unfold UdtPacket.extent pos at *
  bv_omega

/-- The option space an acknowledgement has left for its blocks. -/
def sackSpace : Nat := UdtHdr.MAX_HEADER_SIZE - UdtHdr.size - sizeofCwnd

/-- The blocks are what the peer should know of the queue: nothing, or its highest runs. -/
def Reported (q : List UdtPacket) (blocks : List PairSeq) : Prop :=
  q = [] ∧ blocks = [] ∨ Describes q MAX_PAIR_SEQS blocks

theorem Arranged.reported (arranged : Arranged o q) (full : ∀ p ∈ q, 0 < p.hdr.len.toNat) :
    Reported q (UdtOptionSack.blocks q sackSpace) := by
  by_cases none : q = []
  · subst none
    exact .inl ⟨rfl, rfl⟩
  · right
    have room : UdtOptionSack.room (sackSpace - sizeofOption) 0 = MAX_PAIR_SEQS := by decide
    rw [← room]
    refine (describes_iff (arranged.ordered full) none (by decide)).mpr ⟨?_, ?_⟩
    · exact arranged.origin.half
    · exact ⟨[], extents q, rfl, arranged.origin.tidy full, .inl rfl⟩

theorem Arranged.blocks_rising (arranged : Arranged o q) (full : ∀ p ∈ q, 0 < p.hdr.len.toNat)
    (remainLen : Nat) : Endpoint.Rising o (UdtOptionSack.blocks q remainLen).reverse := by
  refine (arranged.rising full).sublist ?_
  rw [← List.reverse_sublist, List.reverse_reverse]
  exact List.take_sublist _ _

end Queue

section Walk

variable {area : Nat} {w : OptionWalk}

/-- The SACK option as it follows the cwnd option. -/
def sackArea (q : List UdtPacket) : List UChar :=
  if q = [] then []
  else
    let pairs := UdtOptionSack.blocks q sackSpace
    [TCPOPT_SACK, BitVec.ofNat 8 (sizeofOption + sizeofPair * pairs.length)] ++
      UdtOptionSack.wire pairs

theorem composeOptions_eq (c : Conn) :
    c.composeOptions (UdtHdr.MAX_HEADER_SIZE - UdtHdr.size) =
      cwndBytes c.cb.sndCwnd ++ sackArea c.sk.rcvBuf.reasmPkts := by
  have room : sizeofCwnd ≤ UdtHdr.MAX_HEADER_SIZE - UdtHdr.size := by decide
  have left : UdtHdr.MAX_HEADER_SIZE - UdtHdr.size - (cwndBytes c.cb.sndCwnd).length = sackSpace := rfl
  have long : ¬ sackSpace < sizeofOption + sizeofPair := by decide
  rw [Conn.composeOptions, if_pos room, left, UdtOptionSack.compose_eq, sackArea]
  by_cases none : c.sk.rcvBuf.reasmPkts = []
  · rw [if_pos (.inl none), if_pos none, List.append_nil]
  · rw [if_neg (not_or.mpr ⟨none, long⟩), if_neg none]
    exact congrArg (cwndBytes c.cb.sndCwnd ++ ·) (UdtOptionSack.bytes_hton _ _ _)

namespace OptionWalk

/-- What is behind the area in memory. -/
theorem Placed.mem_drop (placed : w.Placed area) :
    w.mem.drop w.ptr.toNat = w.bytes ++ w.mem.drop area := by
  rw [bytes, ← placed.sum, ← List.drop_drop, List.take_append_drop]

theorem Placed.mem_drop_option {kind len : UChar} {rest : List UChar} (placed : w.Placed area)
    (starts : w.bytes = kind :: len :: rest) :
    w.mem.drop (w.ptr.toNat + sizeofOption) = rest ++ w.mem.drop area := by
  rw [← List.drop_drop, placed.mem_drop, starts]
  rfl

/-- The walk reads the window a cwnd option was written with. -/
theorem Placed.next_cwnd {cwnd : Word} {rest : List UChar} (placed : w.Placed area)
    (starts : w.bytes = cwndBytes cwnd ++ rest) :
    ∃ x, w.next = some x ∧ w.width ≤ w.remainLen.toNat ∧ x.Placed area ∧ x.bytes = rest ∧
      x.endpoint = w.endpoint.handleOptionCwnd cwnd := by
  obtain ⟨_, kind, len⟩ := placed.head_of_bytes starts
  obtain ⟨x, step⟩ := exists_next_iff.mpr (.inr (.inl kind))
  have form : w.bytes = w.kind :: w.len :: (le32 (htonl cwnd) ++ rest) := by
    rw [starts, kind, len]
    rfl
  have width : w.width = sizeofCwnd := by
    rw [width, kind]
    rfl
  obtain ⟨enough, after, same⟩ := placed.split form width.symm step
  refine ⟨x, step, enough, after, same, ?_⟩
  have read : load32 w.mem (w.ptr.toNat + sizeofOption) = htonl cwnd := by
    have behind := placed.mem_drop_option form
    rw [List.append_assoc] at behind
    exact load32_of_drop behind
  have sack : ¬ w.kind = TCPOPT_SACK := by rw [kind]; decide
  rw [OptionWalk.next, if_neg sack, if_pos kind] at step
  obtain rfl := Option.some.inj step
  dsimp only
  rw [read, ntohl_htonl]

/-- The walk reads the blocks a SACK option was written with. -/
theorem Placed.next_sack {pairs : List PairSeq} {rest : List UChar} (placed : w.Placed area)
    (few : pairs.length ≤ MAX_PAIR_SEQS)
    (starts : w.bytes = TCPOPT_SACK :: BitVec.ofNat 8 (sizeofOption + sizeofPair * pairs.length) ::
      (UdtOptionSack.wire pairs ++ rest)) :
    ∃ x, w.next = some x ∧ w.width ≤ w.remainLen.toNat ∧ x.Placed area ∧ x.bytes = rest ∧
      x.endpoint = w.endpoint.handleOptionSack pairs := by
  obtain ⟨_, kind, len⟩ := placed.head_of_bytes starts
  obtain ⟨x, step⟩ := exists_next_iff.mpr (.inl kind)
  have lenNat : w.len.toNat = sizeofOption + sizeofPair * pairs.length := by
    rw [len, BitVec.toNat_ofNat]
    unfold MAX_PAIR_SEQS at few
    unfold sizeofOption sizeofPair
    omega
  have size : w.size = pairs.length := by
    rw [size, UdtOptionSack.size_long (by omega), lenNat, Nat.add_sub_cancel_left,
      Nat.mul_div_cancel_left _ (by decide)]
  have form : w.bytes = w.kind :: w.len :: (UdtOptionSack.wire pairs ++ rest) := by
    rw [starts, kind, len]
  have width : w.width = sizeofOption + sizeofPair * pairs.length := by
    rw [width, if_pos kind, size]
  obtain ⟨enough, after, same⟩ := placed.split form
    (by rw [width, UdtOptionSack.wire_length]) step
  refine ⟨x, step, enough, after, same, ?_⟩
  have behind := placed.mem_drop_option form
  rw [List.append_assoc] at behind
  rw [OptionWalk.next, if_pos kind, size] at step
  obtain rfl := Option.some.inj step
  exact congrArg w.endpoint.handleOptionSack (UdtOptionSack.ntoh_wire behind)

theorem Placed.finished (placed : w.Placed area) (none : w.bytes = []) :
    w.remainLen = 0 ∧ w.ptr.toNat = area ∧ Safe area w w := by
  have empty : w.remainLen.toNat = 0 := by
    rw [← placed.length, none]
    rfl
  refine ⟨BitVec.eq_of_toNat_eq empty, ?_, .finished ?_⟩
  · rw [← placed.sum, empty]
    rfl
  · rw [placed.toInt, empty]
    decide

/-- The walk over the options as they were composed. -/
theorem Placed.walk {cwnd : Word} {q : List UdtPacket} (placed : w.Placed area)
    (starts : w.bytes = cwndBytes cwnd ++ sackArea q) :
    ∃ y, Safe area w y ∧ y.remainLen = 0 ∧ y.ptr.toNat = area ∧
      y.endpoint = (w.endpoint.handleOptionCwnd cwnd).handleOptionSack
        (UdtOptionSack.blocks q sackSpace) := by
  obtain ⟨x, step, enough, after, rest, endpoint⟩ := placed.next_cwnd starts
  by_cases none : q = []
  · rw [sackArea, if_pos none] at rest
    obtain ⟨remain, ptr, walk⟩ := after.finished rest
    refine ⟨x, placed.option step enough walk, remain, ptr, ?_⟩
    rw [none, endpoint]
    rfl
  · rw [sackArea, if_neg none] at rest
    have few : (UdtOptionSack.blocks q sackSpace).length ≤ MAX_PAIR_SEQS :=
      (List.length_take_le _ _).trans (Nat.min_le_left _ _)
    obtain ⟨y, step', enough', after', rest', endpoint'⟩ :=
      after.next_sack few (rest.trans (by rw [List.append_nil]; rfl))
    obtain ⟨remain, ptr, walk⟩ := after'.finished rest'
    refine ⟨y, placed.option step enough (after.option step' enough' walk), remain, ptr, ?_⟩
    rw [endpoint', endpoint]

end OptionWalk

theorem sackArea_length (q : List UdtPacket) : (sackArea q).length ≤ sackSpace := by
  unfold sackArea
  split
  · exact Nat.zero_le _
  · have few : (UdtOptionSack.blocks q sackSpace).length ≤ 3 :=
      (List.length_take_le _ _).trans (Nat.min_le_left _ _)
    dsimp only
    rw [List.length_append, UdtOptionSack.wire_length]
    change 2 + 8 * _ ≤ 34
    omega

end Walk

namespace Endpoint

/-- The packet with the options that `compose_options` writes in front of its data. -/
def carrying (c : Conn) (p : UdtPacket) : UdtPacket :=
  let opts := c.composeOptions (UdtHdr.MAX_HEADER_SIZE - UdtHdr.size)
  { p with hdr.off := BitVec.ofNat 16 (UdtHdr.size + opts.length), mem := opts ++ p.mem }

theorem carrying_area (c : Conn) (p : UdtPacket) : (carrying c p).hdr.off.toNat - UdtHdr.size =
    (c.composeOptions (UdtHdr.MAX_HEADER_SIZE - UdtHdr.size)).length := by
  have fits : (c.composeOptions (UdtHdr.MAX_HEADER_SIZE - UdtHdr.size)).length ≤ 40 := by
    have space := sackArea_length c.sk.rcvBuf.reasmPkts
    rw [composeOptions_eq, List.length_append]
    change 6 + _ ≤ 40
    exact Nat.add_le_add_left space 6
  change (BitVec.ofNat 16 (20 + _)).toNat - 20 = _
  generalize (c.composeOptions (UdtHdr.MAX_HEADER_SIZE - UdtHdr.size)).length = n at fits ⊢
  rw [BitVec.toNat_ofNat]
  omega

/-- What a receiver composes, the sender of its peer reads back: the walk ends where the options
do, the window arrives, and exactly the packets inside the highest runs leave `snd_buf`. -/
theorem options_round_trip (c : Conn) (s : Endpoint) (p : UdtPacket) {o : Word}
    (queue : Arranged o c.sk.rcvBuf.reasmPkts)
    (full : ∀ x ∈ c.sk.rcvBuf.reasmPkts, 0 < x.hdr.len.toNat)
    (waiting : Arranged o s.sk.sndBuf.pkts) :
    let area := (c.composeOptions (UdtHdr.MAX_HEADER_SIZE - UdtHdr.size)).length
    let pkt := carrying c p
    ∃ blocks, Reported c.sk.rcvBuf.reasmPkts blocks ∧
      (∃ y, OptionWalk.Safe area (.start s pkt) y ∧ y.ptr.toNat = area ∧ y.remainLen = 0 ∧
        s.handleOptions pkt = y.endpoint.rewritePkt pkt.buffer y.mem) ∧
      (s.handleOptions pkt).cb.pcwnd = c.cb.sndCwnd ∧
      (s.handleOptions pkt).cb.sndFack = followed s.cb.sndFack blocks ∧
      (s.handleOptions pkt).sk.sndBuf.pkts =
        s.sk.sndBuf.pkts.filter fun x => ∀ b ∈ blocks, ¬ x.Within b := by
  intro area pkt
  have length : pkt.hdr.off.toNat - UdtHdr.size = area := carrying_area c p
  have fits : pkt.hdr.off.toNat - UdtHdr.size ≤ pkt.mem.length := by
    rw [length]
    exact (List.length_append ▸ Nat.le_add_right _ _)
  have placed := OptionWalk.start_placed s fits
  rw [length] at placed
  have starts : (OptionWalk.start s pkt).bytes =
      cwndBytes c.cb.sndCwnd ++ sackArea c.sk.rcvBuf.reasmPkts := by
    rw [OptionWalk.bytes, OptionWalk.start_remainLen, length, ← composeOptions_eq]
    exact List.take_left
  obtain ⟨y, walk, remain, ptr, endpoint⟩ := placed.walk starts
  have result : s.handleOptions pkt = y.endpoint.rewritePkt pkt.buffer y.mem :=
    OptionWalk.Safe.handleOptions_eq fits (length ▸ walk)
  obtain ⟨pkts, fack, pcwnd⟩ := handleOptionSack_sweeps (s.handleOptionCwnd c.cb.sndCwnd) waiting
    (queue.blocks_rising full sackSpace)
  refine ⟨_, queue.reported full, ⟨y, walk, ptr, remain, result⟩, ?_, ?_, ?_⟩
  all_goals rw [result, endpoint]
  · exact pcwnd
  · exact fack
  · exact pkts

/-- A segment of `len` bytes from `seq` on. -/
def plainSegment (seq : Word) (len : Half) : UdtPacket :=
  ⟨⟨0, UdtHdr.TH_ACK, 0, len, 20, seq, 0, 0⟩, List.replicate len.toNat 0, 0⟩

/-- Two runs are queued. -/
def holdsTwoRuns : Endpoint :=
  { init 0 0 0 Env.zero with
    sk.rcvBuf.reasmPkts := [plainSegment 10 2, plainSegment 12 1, plainSegment 20 3] }

/-- All of it still waits at the sender, with bytes before, between and over the runs. -/
def waitsForSacks : Endpoint :=
  { init 0 0 0 Env.zero with
    sk.sndBuf.pkts := [plainSegment 8 2, plainSegment 10 2, plainSegment 12 1, plainSegment 13 8,
      plainSegment 21 2] }

theorem options_round_trip_two_runs :
    ∃ blocks, Reported holdsTwoRuns.sk.rcvBuf.reasmPkts blocks ∧
      (waitsForSacks.handleOptions (carrying holdsTwoRuns.toConn (plainSegment 0 0))).sk.sndBuf.pkts =
        waitsForSacks.sk.sndBuf.pkts.filter fun x => ∀ b ∈ blocks, ¬ x.Within b := by
  have queue : Arranged 0 holdsTwoRuns.sk.rcvBuf.reasmPkts := ⟨by decide, by decide⟩
  have waiting : Arranged 0 waitsForSacks.sk.sndBuf.pkts := ⟨by decide, by decide⟩
  obtain ⟨blocks, reported, _, _, _, pkts⟩ := options_round_trip holdsTwoRuns.toConn waitsForSacks
    (plainSegment 0 0) queue (by decide) waiting
  exact ⟨blocks, reported, pkts⟩

end Endpoint

end UdtBoost
