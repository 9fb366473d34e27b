import UdtBoost.Invariant
import UdtBoost.Runs

/-! What a SACK option says of the reassembly queue. `compose` reads the runs of the queue off its
end; they are what the peer takes them for as far as no packets overlap and no empty one stands
alone. -/
namespace UdtBoost

open UdtOption

/-- The sequence numbers a packet occupies. -/
def UdtPacket.block (p : UdtPacket) : PairSeq := (p.hdr.seq, p.endSeq)

namespace UdtOptionSack

/-- How many blocks fit into `remainLen` bytes after `i` blocks. -/
def room (remainLen i : Nat) : Nat := min (MAX_PAIR_SEQS - i) (remainLen / sizeofPair)

theorem room_pos_iff (remainLen i : Nat) :
    0 < room remainLen i ↔ sizeofPair ≤ remainLen ∧ i < MAX_PAIR_SEQS := by
  unfold room sizeofPair MAX_PAIR_SEQS
  omega

theorem room_next {remainLen i : Nat} (open_ : sizeofPair ≤ remainLen ∧ i < MAX_PAIR_SEQS) :
    room remainLen i = room (remainLen - sizeofPair) (i + 1) + 1 := by
  unfold room sizeofPair MAX_PAIR_SEQS at *
  omega

/-- The walk writes the highest runs, as many as fit. -/
theorem composeLoop_eq (rest : List UdtPacket) (remainLen i : Nat) (prevSeq prevEndSeq : Word) :
    composeLoop rest remainLen i prevSeq prevEndSeq =
      let pairs := (Runs.runs ((rest.map UdtPacket.block).reverse ++
        [(prevSeq, prevEndSeq)])).reverse.take (room remainLen i)
      (pairs, remainLen - sizeofPair * pairs.length) := by
  induction rest generalizing remainLen i prevSeq prevEndSeq with
  | nil =>
      have one : Runs.runs ([(prevSeq, prevEndSeq)] : List PairSeq) = [(prevSeq, prevEndSeq)] := rfl
      rw [composeLoop, List.map_nil, List.reverse_nil, List.nil_append, one, List.reverse_singleton]
      split
      · next open_ =>
          rw [room_next open_, List.take_succ_cons, List.take_nil]
          rfl
      · next full =>
          have none : room remainLen i = 0 := by
            rw [← room_pos_iff] at full
            omega
          rw [none]
          rfl
  | cons p rest ih =>
      have list : ((p :: rest).map UdtPacket.block).reverse ++ [(prevSeq, prevEndSeq)] =
          (rest.map UdtPacket.block).reverse ++ [p.block, (prevSeq, prevEndSeq)] := by simp
      rw [composeLoop, list]
      split
      case isFalse full =>
        have none : room remainLen i = 0 := by
          rw [← room_pos_iff] at full
          omega
        rw [none]
        rfl
      case isTrue open_ =>
        split
        · next gap =>
            have apart : p.block.2 ≠ (prevSeq, prevEndSeq).1 := Ne.symm gap
            rw [ih, Runs.runs_append_gap _ apart, List.reverse_append,
              room_next open_]
            dsimp only
            refine Prod.ext rfl ?_
            simp only [UdtPacket.block, List.reverse_singleton, List.singleton_append,
              List.take_succ_cons, List.length_cons, Nat.mul_succ]
            omega
        · next touching =>
            have meets : p.block.2 = (prevSeq, prevEndSeq).1 := (not_not.mp touching).symm
            rw [ih, Runs.runs_append_touching _ meets]
            rfl

/-- The blocks for `remainLen` bytes of option space. -/
def blocks (q : List UdtPacket) (remainLen : Nat) : List PairSeq :=
  (Runs.runs (q.map UdtPacket.block)).reverse.take (room (remainLen - sizeofOption) 0)

theorem compose_eq (q : List UdtPacket) (remainLen : Nat) :
    compose q.reverse remainLen =
      if q = [] ∨ remainLen < sizeofOption + sizeofPair then (none, remainLen)
      else (some ⟨TCPOPT_SACK, BitVec.ofNat 8 (sizeofOption +
          sizeofPair * (blocks q remainLen).length), blocks q remainLen⟩,
        remainLen - sizeofOption - sizeofPair * (blocks q remainLen).length) := by
  rcases q.eq_nil_or_concat with rfl | ⟨low, p, rfl⟩
  · rfl
  rw [List.concat_eq_append]
  have list : ((low.reverse.map UdtPacket.block).reverse ++ [(p.hdr.seq, p.endSeq)]) =
      (low ++ [p]).map UdtPacket.block := by simp [UdtPacket.block]
  rw [List.reverse_append, List.reverse_singleton, List.singleton_append, compose]
  by_cases short : remainLen < sizeofOption + sizeofPair
  · rw [if_pos short, if_pos (.inr short)]
  · have open_ : ¬ (low ++ [p] = [] ∨ remainLen < sizeofOption + sizeofPair) := by simp [short]
    rw [if_neg short, if_neg open_, composeLoop_eq, list]
    rfl

end UdtOptionSack

section Positions

variable {o x : Word} {b c : PairSeq} {p : UdtPacket}

/-- How far a sequence number lies from `o` on. -/
def pos (o x : Word) : Nat := (x - o).toNat

/-- A packet's place in the queue, counted from `o`. -/
def UdtPacket.extent (o : Word) (p : UdtPacket) : Nat × Nat :=
  (pos o p.hdr.seq, pos o p.hdr.seq + p.hdr.len.toNat)

/-- The sequence number lies in the block. -/
def InBlock (b : PairSeq) (x : Word) : Prop := (x - b.1).toNat < (b.2 - b.1).toNat

theorem pos_injective (o : Word) : Function.Injective (pos o) := by
  intro x y same
  unfold pos at same
  bv_omega

theorem pos_endSeq (half : (p.extent o).2 ≤ 2 ^ 31) : pos o p.endSeq = (p.extent o).2 := by
  unfold UdtPacket.extent pos UdtPacket.endSeq at *
  bv_omega

theorem extent_eq_block (half : (p.extent o).2 ≤ 2 ^ 31) : Prod.map (pos o) (pos o) p.block = p.extent o :=
  Prod.ext rfl (pos_endSeq half)

theorem inBlock_iff (valid : pos o b.1 ≤ pos o b.2) :
    InBlock b x ↔ pos o b.1 ≤ pos o x ∧ pos o x < pos o b.2 := by
  unfold InBlock pos at *
  bv_omega

theorem seqLt_iff_pos (valid : pos o b.1 ≤ pos o b.2) (half : pos o b.2 ≤ 2 ^ 31) :
    seqLt b.1 b.2 ↔ pos o b.1 < pos o b.2 := by
  rw [seqLt_iff]
  unfold pos at *
  bv_omega

theorem seqGt_iff_pos (first : pos o b.1 < 2 ^ 31) (second : pos o c.2 ≤ 2 ^ 31) :
    seqGt b.1 c.2 ↔ pos o c.2 < pos o b.1 := by
  rw [seqGt_iff]
  unfold pos at *
  bv_omega

theorem pos_add_ofNat {n : Nat} (o : Word) (small : n < 2 ^ 32) : pos o (o + BitVec.ofNat 32 n) = n := by
  unfold pos
  bv_omega

theorem pos_pred (o x : Word) : pos o (x - 1) = if pos o x = 0 then 2 ^ 32 - 1 else pos o x - 1 := by
  unfold pos
  split <;> bv_omega

end Positions

/-- Where the queue starts; its packets are in the order of the circle from there on. -/
def origin (q : List UdtPacket) : Word := (q.head?.map fun p => p.hdr.seq).getD 0

def extents (q : List UdtPacket) : List (Nat × Nat) := q.map (UdtPacket.extent (origin q))

/-- The queue lies within half of the circle. -/
def InHalf (q : List UdtPacket) : Prop := ∀ p ∈ q, (p.extent (origin q)).2 < 2 ^ 31

/-- A packet of the queue holds the byte. -/
def Held (q : List UdtPacket) (x : Word) : Prop := ∃ p ∈ q, InBlock p.block x

/-- The blocks are the highest maximal runs of the bytes in the queue, `most` of them or all. -/
structure Describes (q : List UdtPacket) (most : Nat) (blocks : List PairSeq) : Prop where
  some : blocks ≠ []
  few : blocks.length ≤ MAX_PAIR_SEQS
  nonempty : ∀ b ∈ blocks, seqLt b.1 b.2
  descending : blocks.Pairwise fun b c => seqGt b.1 c.2
  held : ∀ b ∈ blocks, ∀ x, InBlock b x → Held q x
  ended : ∀ b ∈ blocks, ¬ Held q b.2
  begun : ∀ b ∈ blocks, ¬ Held q (b.1 - 1)
  half : InHalf q
  highest : ∀ x, Held q x →
    (∃ b ∈ blocks, InBlock b x) ∨ ∀ b ∈ blocks, pos (origin q) x < pos (origin q) b.1
  all : blocks.length < most → ∀ x, Held q x → ∃ b ∈ blocks, InBlock b x

section Describing

variable {q : List UdtPacket} {x : Word} {most : Nat}

theorem held_iff (half : InHalf q) :
    Held q x ↔ Runs.Covers (extents q) (pos (origin q) x) := by
  unfold Held Runs.Covers extents
  simp only [List.mem_map, exists_exists_and_eq_and]
  refine exists_congr fun p => and_congr_right fun member => ?_
  have stop : pos (origin q) p.block.2 = (p.extent (origin q)).2 := pos_endSeq (half p member).le
  have valid : pos (origin q) p.block.1 ≤ pos (origin q) p.block.2 := by
    rw [stop]
    exact Nat.le_add_right _ _
  rw [inBlock_iff valid, stop]
  rfl

/-- The runs of the queue, in sequence numbers and in places. -/
theorem runs_places {o : Word} (half : ∀ p ∈ q, (p.extent o).2 < 2 ^ 31) :
    (Runs.runs (q.map UdtPacket.block)).map (Prod.map (pos o) (pos o)) =
      Runs.runs (q.map (UdtPacket.extent o)) := by
  rw [← Runs.runs_map (pos_injective _), List.map_map]
  congr 1
  exact List.map_congr_left fun p member => extent_eq_block (half p member).le

theorem runs_extents (half : InHalf q) :
    (Runs.runs (q.map UdtPacket.block)).map (Prod.map (pos (origin q)) (pos (origin q))) =
      Runs.runs (extents q) := runs_places half

theorem runs_half (half : InHalf q) {r : Nat × Nat} (member : r ∈ Runs.runs (extents q)) :
    r.1 ≤ r.2 ∧ r.2 ≤ 2 ^ 31 := by
  constructor
  · refine Runs.runs_valid ?_ r member
    intro a queued
    obtain ⟨p, _, rfl⟩ := List.mem_map.mp queued
    exact Nat.le_add_right _ _
  · obtain ⟨_, a, queued, stop⟩ := Runs.runs_edges member
    obtain ⟨p, packet, rfl⟩ := List.mem_map.mp queued
    exact stop.le.trans (half p packet).le

theorem covers_half (half : InHalf q) {n : Nat} (covered : Runs.Covers (extents q) n) :
    n < 2 ^ 31 := by
  obtain ⟨a, queued, _, stop⟩ := covered
  obtain ⟨p, packet, rfl⟩ := List.mem_map.mp queued
  exact stop.trans (half p packet)

/-- A byte at a place, or before the first one. -/
theorem held_of_covers (half : InHalf q) {n : Nat} (covered : Runs.Covers (extents q) n) :
    Held q (origin q + BitVec.ofNat 32 n) := by
  have small := covers_half half covered
  rw [held_iff half, pos_add_ofNat _ (by omega)]
  exact covered

section Places

variable {blocks : List PairSeq}

/-- The blocks by the places of their edges. -/
def places (q : List UdtPacket) (blocks : List PairSeq) : List (Nat × Nat) :=
  blocks.map (Prod.map (pos (origin q)) (pos (origin q)))

/-- Every block is a run of the queue. -/
def OfRuns (q : List UdtPacket) (blocks : List PairSeq) : Prop :=
  ∀ r ∈ places q blocks, r ∈ Runs.runs (extents q)

theorem OfRuns.edges (runs : OfRuns q blocks) (half : InHalf q) {b : PairSeq} (member : b ∈ blocks) :
    pos (origin q) b.1 ≤ pos (origin q) b.2 ∧ pos (origin q) b.2 ≤ 2 ^ 31 :=
  runs_half half (runs _ (List.mem_map_of_mem member))

theorem OfRuns.covers_iff (runs : OfRuns q blocks) (half : InHalf q) :
    (∃ b ∈ blocks, InBlock b x) ↔ Runs.Covers (places q blocks) (pos (origin q) x) := by
  unfold Runs.Covers places
  simp only [List.mem_map, exists_exists_and_eq_and]
  exact exists_congr fun b => and_congr_right fun member =>
    inBlock_iff (runs.edges half member).1

theorem begun_iff (half : InHalf q) {b : PairSeq} : ¬ Held q (b.1 - 1) ↔
    ∀ n, n + 1 = pos (origin q) b.1 → ¬ Runs.Covers (extents q) n := by
  rw [held_iff half, pos_pred]
  constructor
  · intro free n before covered
    rw [if_neg (by omega)] at free
    exact free ((show pos (origin q) b.1 - 1 = n by omega) ▸ covered)
  · intro free covered
    split at covered
    · have := covers_half half covered
      omega
    · exact free _ (by omega) covered

/-- What the blocks say in sequence numbers, their places say in order. -/
theorem Describes.inOrder (runs : OfRuns q blocks) (describes : Describes q most blocks) :
    Runs.Highest (extents q) (places q blocks) most := by
  have half := describes.half
  have filled : ∀ b ∈ blocks, pos (origin q) b.1 < pos (origin q) b.2 := fun b member =>
    (seqLt_iff_pos (runs.edges half member).1 (runs.edges half member).2).mp
      (describes.nonempty b member)
  have held : ∀ {n}, Runs.Covers (extents q) n →
      Held q (origin q + BitVec.ofNat 32 n) ∧ pos (origin q) (origin q + BitVec.ofNat 32 n) = n := by
    intro n covered
    have small := covers_half half covered
    exact ⟨held_of_covers half covered, pos_add_ofNat _ (by omega)⟩
  refine ⟨?_, ?_, ?_, ?_, ?_, ?_, ?_⟩
  · intro r member
    obtain ⟨b, block, rfl⟩ := List.mem_map.mp member
    exact filled b block
  · refine List.pairwise_map.mpr (describes.descending.imp_of_mem fun {b c} first second gt => ?_)
    have small := (filled b first).trans_le (runs.edges half first).2
    exact (seqGt_iff_pos small (runs.edges half second).2).mp gt
  · intro r member n lower upper
    obtain ⟨b, block, rfl⟩ := List.mem_map.mp member
    have small : n < 2 ^ 31 := upper.trans_le (runs.edges half block).2
    have place : pos (origin q) (origin q + BitVec.ofNat 32 n) = n := pos_add_ofNat _ (by omega)
    have here := describes.held b block (origin q + BitVec.ofNat 32 n)
      ((inBlock_iff (runs.edges half block).1).mpr (by rw [place]; exact ⟨lower, upper⟩))
    rwa [held_iff half, place] at here
  · intro r member
    obtain ⟨b, block, rfl⟩ := List.mem_map.mp member
    exact fun covered => describes.ended b block ((held_iff half).mpr covered)
  · intro r member
    obtain ⟨b, block, rfl⟩ := List.mem_map.mp member
    exact (begun_iff half).mp (describes.begun b block)
  · intro n covered
    obtain ⟨here, place⟩ := held covered
    rcases describes.highest _ here with block | below
    · exact .inl (place ▸ (runs.covers_iff half).mp block)
    · right
      intro r member
      obtain ⟨b, block, rfl⟩ := List.mem_map.mp member
      exact place ▸ below b block
  · intro few n covered
    obtain ⟨here, place⟩ := held covered
    rw [places, List.length_map] at few
    exact place ▸ (runs.covers_iff half).mp (describes.all few _ here)

theorem Describes.of_order (runs : OfRuns q blocks) (half : InHalf q) (some : blocks ≠ [])
    (few : blocks.length ≤ MAX_PAIR_SEQS)
    (highest : Runs.Highest (extents q) (places q blocks) most) : Describes q most blocks := by
  have member : ∀ {b}, b ∈ blocks → Prod.map (pos (origin q)) (pos (origin q)) b ∈
      places q blocks := List.mem_map_of_mem
  refine ⟨some, few, ?_, ?_, ?_, ?_, ?_, half, ?_, ?_⟩
  · intro b block
    exact (seqLt_iff_pos (runs.edges half block).1 (runs.edges half block).2).mpr
      (highest.nonempty _ (member block))
  · refine (List.pairwise_map.mp highest.descending).imp_of_mem fun {b c} first second lt => ?_
    have small := (highest.nonempty _ (member first)).trans_le (runs.edges half first).2
    exact (seqGt_iff_pos small (runs.edges half second).2).mpr lt
  · intro b block x inside
    obtain ⟨lower, upper⟩ := (inBlock_iff (runs.edges half block).1).mp inside
    exact (held_iff half).mpr (highest.inside _ (member block) _ lower upper)
  · intro b block here
    exact highest.ended _ (member block) ((held_iff half).mp here)
  · intro b block
    exact (begun_iff half).mpr (highest.begun _ (member block))
  · intro x here
    rcases highest.highest _ ((held_iff half).mp here) with block | below
    · exact .inl ((runs.covers_iff half).mpr block)
    · exact .inr fun b block => below _ (member block)
  · intro short x here
    refine (runs.covers_iff half).mpr (highest.all ?_ _ ((held_iff half).mp here))
    rwa [places, List.length_map]

end Places

/-- Each packet of the queue starts before the next. -/
def Ordered (q : List UdtPacket) : Prop := q.IsChain fun p p' => seqLt p.hdr.seq p'.hdr.seq

theorem Ordered.ascending (ordered : Ordered q) (half : InHalf q) : Runs.Ascending (extents q) := by
  constructor
  · intro a queued
    obtain ⟨p, _, rfl⟩ := List.mem_map.mp queued
    exact Nat.le_add_right _ _
  · have chain : ((extents q).map Prod.fst).IsChain (· < ·) := by
      rw [extents, List.map_map, List.isChain_map]
      refine List.IsChain.imp_of_mem_imp (fun p p' first second lt => ?_) ordered
      have low := half p first
      have high := half p' second
      rw [seqLt_iff] at lt
      unfold UdtPacket.extent pos at low high
      unfold UdtPacket.extent pos Function.comp
      dsimp only at low high ⊢
      bv_omega
    exact List.pairwise_map.mp (List.isChain_iff_pairwise.mp chain)

theorem places_blocks (half : InHalf q) (remainLen : Nat) :
    places q (UdtOptionSack.blocks q remainLen) = (Runs.runs (extents q)).reverse.take
      (UdtOptionSack.room (remainLen - sizeofOption) 0) := by
  rw [places, UdtOptionSack.blocks, List.map_take, List.map_reverse, runs_extents half]

/-- The blocks describe the queue exactly if its runs can be told apart. -/
theorem describes_iff (ordered : Ordered q) (some_ : q ≠ []) {remainLen : Nat}
    (open_ : 1 ≤ UdtOptionSack.room (remainLen - sizeofOption) 0) :
    Describes q (UdtOptionSack.room (remainLen - sizeofOption) 0)
        (UdtOptionSack.blocks q remainLen) ↔
      InHalf q ∧ Runs.Clear (extents q) (UdtOptionSack.room (remainLen - sizeofOption) 0) := by
  have ofRuns : InHalf q → OfRuns q (UdtOptionSack.blocks q remainLen) := by
    intro half r member
    rw [places_blocks half] at member
    exact List.mem_reverse.mp (List.mem_of_mem_take member)
  constructor
  · intro describes
    have half := describes.half
    have highest := describes.inOrder (ofRuns half)
    rw [places_blocks half] at highest
    exact ⟨half, (Runs.highest_iff (ordered.ascending half) open_).mp highest⟩
  · rintro ⟨half, clear⟩
    have highest := (Runs.highest_iff (ordered.ascending half) open_).mpr clear
    rw [← places_blocks half] at highest
    refine .of_order (ofRuns half) half ?_ ?_ highest
    · rw [UdtOptionSack.blocks, Ne, List.take_eq_nil_iff, List.reverse_eq_nil_iff,
        Runs.runs_eq_nil_iff, List.map_eq_nil_iff]
      rintro (none | empty)
      · omega
      · exact some_ empty
    · refine (List.length_take_le _ _).trans ?_
      unfold UdtOptionSack.room
      exact Nat.min_le_left _ _

/-- What `compose` writes, if it writes anything, describes the queue and fits. -/
def Accurate (q : List UdtPacket) (remainLen : Nat) : Prop :=
  match UdtOptionSack.compose q.reverse remainLen with
  | (none, left) => left = remainLen
  | (some opt, left) =>
      opt.kind = TCPOPT_SACK ∧
        opt.len.toNat = sizeofOption + sizeofPair * opt.pairSeqs.length ∧
        left + (sizeofOption + sizeofPair * opt.pairSeqs.length) = remainLen ∧
        Describes q (UdtOptionSack.room (remainLen - sizeofOption) 0) opt.pairSeqs

/-- Nothing is written, or the runs that fit can be told apart. -/
def Legible (q : List UdtPacket) (remainLen : Nat) : Prop :=
  (q = [] ∨ remainLen < sizeofOption + sizeofPair) ∨
    InHalf q ∧ Runs.Clear (extents q) (UdtOptionSack.room (remainLen - sizeofOption) 0)

theorem accurate_iff (ordered : Ordered q) (remainLen : Nat) :
    Accurate q remainLen ↔ Legible q remainLen := by
  unfold Accurate Legible
  rw [UdtOptionSack.compose_eq]
  by_cases none : q = [] ∨ remainLen < sizeofOption + sizeofPair
  · rw [if_pos none]
    exact ⟨fun _ => .inl none, fun _ => rfl⟩
  rw [if_neg none, or_iff_right none]
  dsimp only
  rw [not_or, not_lt] at none
  obtain ⟨some_, long⟩ := none
  have open_ : 1 ≤ UdtOptionSack.room (remainLen - sizeofOption) 0 := by
    rw [Nat.one_le_iff_ne_zero, ← Nat.pos_iff_ne_zero, UdtOptionSack.room_pos_iff]
    unfold sizeofOption sizeofPair MAX_PAIR_SEQS at *
    omega
  have few : (UdtOptionSack.blocks q remainLen).length ≤
      UdtOptionSack.room (remainLen - sizeofOption) 0 := List.length_take_le _ _
  have room : (UdtOptionSack.blocks q remainLen).length ≤ 3 ∧
      sizeofPair * (UdtOptionSack.blocks q remainLen).length ≤ remainLen - sizeofOption := by
    generalize (UdtOptionSack.blocks q remainLen).length = n at few ⊢
    unfold UdtOptionSack.room MAX_PAIR_SEQS at few
    unfold sizeofPair at *
    omega
  have describes := describes_iff ordered some_ open_
  constructor
  · exact fun accurate => describes.mp accurate.2.2.2
  · refine fun legible => ⟨rfl, ?_, ?_, describes.mpr legible⟩
    all_goals
      generalize (UdtOptionSack.blocks q remainLen).length = n at room ⊢
      unfold sizeofPair sizeofOption at *
    · rw [BitVec.toNat_ofNat, Nat.mod_eq_of_lt (by omega)]
    · omega

end Describing

/-- `tcp_reass` puts a packet where it belongs, and the queue only loses its front. -/
theorem Step.ordered {v w : View} {a : Act} (step : Step v a w)
    (ordered : Ordered v.rcvBuf.reasmPkts) : Ordered w.rcvBuf.reasmPkts := by
  cases step with
  | transmit _ _ sends =>
      rw [sends.moved]
      exact ordered
  | @store p below above run kept queue before after split =>
      rw [queue] at ordered
      obtain ⟨low, high, _⟩ := List.isChain_append.mp ordered
      have inserted : Ordered (below ++ p :: above) := by
        refine List.isChain_append.mpr ⟨low, List.isChain_cons.mpr ⟨?_, high⟩, ?_⟩
        · intro x first
          obtain ⟨later, other⟩ := after x first
          rw [seqLt_iff] at later ⊢
          bv_omega
        · intro x last y first
          obtain rfl := Option.some.inj first
          exact before x (List.mem_of_mem_getLast? last)
      rw [split] at inserted
      exact inserted.right_of_append
  | rewrite =>
      refine (List.isChain_map _).mpr (ordered.imp fun p p' lt => ?_)
      split <;> split <;> exact lt
  | close => exact .nil
  | _ => exact ordered

namespace Endpoint

theorem run_ordered (fack sndSeq rcvSeq : Word) (env : Env) (es : List Event) :
    Ordered ((init fack sndSeq rcvSeq env).run es).sk.rcvBuf.reasmPkts := by
  have kept := run_invariant (P := fun _ _ => True) (C := fun _ _ => True)
    (I := fun v => Ordered v.rcvBuf.reasmPkts)
    (Trace.Meets.trivial_of es fun _ _ => trivial) (init_calm fack sndSeq rcvSeq env) .nil
    (fun _ => trivial)
    (fun _ _ _ _ _ => EventOk.of_all (fun _ _ _ _ => trivial) (fun _ _ _ => trivial)
      fun _ _ => trivial)
    fun _ _ _ ordered _ step => step.ordered ordered
  exact kept.2

/-- In every run and for every length, what `compose` writes about the queue is right exactly if the
queue's runs, as far down as they are written, can be told apart. -/
theorem sack_accurate_iff (fack sndSeq rcvSeq : Word) (env : Env) (es : List Event)
    (remainLen : Nat) :
    Accurate ((init fack sndSeq rcvSeq env).run es).sk.rcvBuf.reasmPkts remainLen ↔
      Legible ((init fack sndSeq rcvSeq env).run es).sk.rcvBuf.reasmPkts remainLen :=
  accurate_iff (run_ordered fack sndSeq rcvSeq env es) remainLen

/-- The queue after a passive open and segments of the peer. -/
def queueOf (segments : List (UChar × Word × List UChar)) : List UdtPacket :=
  ((init 0 0 0 Env.zero).run ([.accept 0, .datagram ⟨0, UdtHdr.TH_SYN, 65535, 0, 20, 1000, 0, 0⟩ []] ++
    ((0, 1001, []) :: segments).map fun (flags, seq, mem) =>
      .datagram ⟨0, UdtHdr.TH_ACK ||| flags, 65535, BitVec.ofNat 16 mem.length, 20, seq, 1, 0⟩
        mem)).sk.rcvBuf.reasmPkts

/-- An empty FIN that comes early is written as an empty block, and two segments that overlap as two
blocks that do. -/
theorem early_fin_and_overlap_misread :
    ¬ Accurate (queueOf [(UdtHdr.TH_FIN, 1101, [])]) 40 ∧
      ¬ Accurate (queueOf [(0, 1101, [1, 2]), (0, 1102, [3, 4])]) 40 := by
  have described : ∀ q : List UdtPacket, ¬ (q = [] ∨ 40 < sizeofOption + sizeofPair) →
      Accurate q 40 → Describes q (UdtOptionSack.room 38 0) (UdtOptionSack.blocks q 40) := by
    intro q written accurate
    unfold Accurate at accurate
    rw [UdtOptionSack.compose_eq, if_neg written] at accurate
    exact accurate.2.2.2
  constructor
  · intro accurate
    have describes := described _ (by decide +kernel) accurate
    have written : UdtOptionSack.blocks (queueOf [(UdtHdr.TH_FIN, 1101, [])]) 40 =
        [(1101, 1101)] := by decide +kernel
    rw [written] at describes
    exact absurd (describes.nonempty (1101, 1101) List.mem_cons_self) (by decide)
  · intro accurate
    have describes := described _ (by decide +kernel) accurate
    have written : UdtOptionSack.blocks (queueOf [(0, 1101, [1, 2]), (0, 1102, [3, 4])]) 40 =
        [(1102, 1104), (1101, 1103)] := by decide +kernel
    rw [written] at describes
    have apart := List.rel_of_pairwise_cons describes.descending List.mem_cons_self
    exact absurd apart (by decide)

end Endpoint

end UdtBoost
