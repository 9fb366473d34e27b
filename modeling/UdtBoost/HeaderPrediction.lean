import UdtBoost.Outcome
import UdtBoost.Options
import UdtBoost.Invariant

/-! Header prediction beside the path it spares. They agree but for a window option that reaches
into the payload, and for a FIN that waits to be handled. -/
namespace UdtBoost

namespace UdtBuf

theorem copyLoop_buffers (pkts : List UdtPacket) (seq : Word) (bufLen : Nat) (erase : Bool) :
    ∀ q ∈ (copyLoop pkts seq bufLen erase).2, ∃ p ∈ pkts, q.buffer = p.buffer := by
  induction pkts generalizing seq bufLen erase with
  | nil => simp [copyLoop]
  | cons p rest ih =>
      have head : ∀ left : List UdtPacket, (∀ q ∈ left, q.buffer = p.buffer) → ∀ tail,
          (∀ q ∈ tail, ∃ r ∈ rest, q.buffer = r.buffer) →
          ∀ q ∈ left ++ tail, ∃ r ∈ p :: rest, q.buffer = r.buffer := by
        intro left front tail back q member
        rcases List.mem_append.mp member with member | member
        · exact ⟨p, List.mem_cons_self, front q member⟩
        · obtain ⟨r, here, same⟩ := back q member
          exact ⟨r, List.mem_cons_of_mem p here, same⟩
      have left : ∀ q ∈ (if bufLen < p.hdr.len.toNat then
          [{ p with hdr :=
            { p.hdr with
              off := p.hdr.off + BitVec.ofNat 16 (min p.hdr.len.toNat bufLen)
              seq := p.hdr.seq + BitVec.ofNat 32 (min p.hdr.len.toNat bufLen)
              len := p.hdr.len - BitVec.ofNat 16 (min p.hdr.len.toNat bufLen) } }]
          else if erase then [] else [p] : List UdtPacket), q.buffer = p.buffer := by
        split
        · simp
        · split <;> simp
      rw [copyLoop]
      dsimp only
      split
      · exact head _ left _ (ih _ _ _)
      · exact head _ left _ fun q member => ⟨q, member, rfl⟩

theorem copy_buffers (b : UdtBuf) (bufLen : Nat) (erase : Bool) :
    ∀ q ∈ (b.copy bufLen erase).2.pkts, ∃ p ∈ b.pkts, q.buffer = p.buffer := by
  rw [copy]
  cases queue : b.pkts with
  | nil => simp [queue]
  | cons p rest =>
      dsimp only
      split
      · rw [queue]
        exact fun q member => ⟨q, member, rfl⟩
      · exact copyLoop_buffers (p :: rest) _ _ _

end UdtBuf

namespace Core

/-- The packets received and not read yet. -/
def received (c : Core) : List UdtPacket := c.rcvBuf.pkts ++ c.rcvBuf.reasmPkts

/-- Received packets lie in buffers handed out before, and none of them in the one that waits for
the next datagram, as long as that one is not about to be given up. -/
structure Apart (c : Core) : Prop where
  used : ∀ q ∈ c.received, q.buffer < c.nextBuffer
  pending : ∀ b, c.rcvPkt = some b → b < c.nextBuffer
  apart : c.packetConsumed = false → ∀ b, c.rcvPkt = some b → ∀ q ∈ c.received, q.buffer ≠ b

/-- Every buffer of `d` is one of `c`. -/
theorem Apart.of_buffers {c d : Core} (apart : c.Apart) (next : d.nextBuffer = c.nextBuffer)
    (pending : d.rcvPkt = none ∨ d.rcvPkt = c.rcvPkt ∧ d.packetConsumed = c.packetConsumed)
    (known : ∀ q ∈ d.received, ∃ p ∈ c.received, q.buffer = p.buffer) : d.Apart := by
  obtain ⟨used, waits, own⟩ := apart
  refine ⟨?_, ?_, ?_⟩
  · intro q member
    obtain ⟨p, member, same⟩ := known q member
    rw [same, next]
    exact used p member
  · intro b here
    rcases pending with none | ⟨same, _⟩
    · rw [none] at here
      contradiction
    · rw [next]
      exact waits b (same ▸ here)
  · intro kept b here q member
    obtain ⟨p, member, buffer⟩ := known q member
    rcases pending with none | ⟨same, flag⟩
    · rw [none] at here
      contradiction
    · rw [buffer]
      exact own (flag ▸ kept) b (same ▸ here) p member

/-- Only a packet in a buffer handed out before is kept. -/
def Handed (v : View) (a : Act) : Prop := ∀ p, a = .store p → p.buffer < v.nextBuffer

end Core

theorem Step.apart {v w : View} {a : Act} (step : Step v a w) (apart : v.Apart)
    (handed : Core.Handed v a) : w.Apart := by
  have same : w.received = v.received → w.nextBuffer = v.nextBuffer →
      w.rcvPkt = v.rcvPkt → w.packetConsumed = v.packetConsumed → w.Apart := by
    intro received next pending flag
    refine apart.of_buffers next (.inr ⟨pending, flag⟩) ?_
    rw [received]
    exact fun q member => ⟨q, member, rfl⟩
  have copied : ∀ {u : View} {n : Nat}, u.nextBuffer = v.nextBuffer → u.rcvPkt = v.rcvPkt →
      u.packetConsumed = v.packetConsumed →
      u.rcvBuf = { v.rcvBuf with toUdtBuf := (v.rcvBuf.toUdtBuf.copy n true).2 } → u.Apart := by
    intro u n next pending flag buf
    refine apart.of_buffers next (.inr ⟨pending, flag⟩) ?_
    intro q member
    rw [Core.received, buf] at member
    rcases List.mem_append.mp member with member | member
    · obtain ⟨p, here, buffer⟩ := UdtBuf.copy_buffers _ _ _ q member
      exact ⟨p, List.mem_append_left _ here, buffer⟩
    · exact ⟨q, List.mem_append_right _ member, rfl⟩
  have dropped : ∀ {u : View}, u.nextBuffer = v.nextBuffer → u.rcvPkt = none →
      u.rcvBuf = v.rcvBuf → u.Apart := by
    intro u next none buf
    refine apart.of_buffers next (.inl none) ?_
    rw [Core.received, buf]
    exact fun q member => ⟨q, member, rfl⟩
  cases step with
  | transmit _ _ sends =>
      refine same ?_ ?_ ?_ ?_ <;> rw [sends.moved]
      rfl
  | @store p below above run kept queue _ _ split =>
      have inside : ∀ q ∈ run ++ kept, q = p ∨ q ∈ v.received := by
        rw [← split]
        intro q member
        rcases List.mem_append.mp member with member | member
        · exact .inr (List.mem_append_right _ (queue ▸ List.mem_append_left _ member))
        · rcases List.mem_cons.mp member with rfl | member
          · exact .inl rfl
          · exact .inr (List.mem_append_right _ (queue ▸ List.mem_append_right _ member))
      refine ⟨?_, apart.pending, fun down => Bool.noConfusion down⟩
      intro q member
      change q ∈ (v.rcvBuf.pkts ++ run) ++ kept at member
      rw [List.append_assoc] at member
      rcases List.mem_append.mp member with member | member
      · exact apart.used q (List.mem_append_left _ member)
      · rcases inside q member with rfl | member
        · exact handed q rfl
        · exact apart.used q member
  | alloc =>
      refine ⟨fun q member => (apart.used q member).trans (Nat.lt_succ_self _), ?_, ?_⟩
      · intro b here
        obtain rfl := Option.some.inj here
        exact Nat.lt_succ_self _
      · intro _ b here q member
        obtain rfl := Option.some.inj here
        exact (apart.used q member).ne
  | release => exact dropped rfl rfl rfl
  | kept => exact dropped rfl rfl rfl
  | @rewrite p mem =>
      refine apart.of_buffers rfl (.inr ⟨rfl, rfl⟩) ?_
      have plain : ∀ ps : List UdtPacket,
          ∀ q ∈ ps.map (fun q => if q.buffer = p.buffer then { q with mem } else q),
            ∃ r ∈ ps, q.buffer = r.buffer := by
        intro ps q member
        obtain ⟨r, here, rfl⟩ := List.mem_map.mp member
        refine ⟨r, here, ?_⟩
        split <;> rfl
      intro q member
      rcases List.mem_append.mp member with member | member
      · obtain ⟨r, here, buffer⟩ := plain _ q member
        exact ⟨r, List.mem_append_left _ here, buffer⟩
      · obtain ⟨r, here, buffer⟩ := plain _ q member
        exact ⟨r, List.mem_append_right _ here, buffer⟩
  | dispatch => exact copied rfl rfl rfl rfl
  | discard => exact copied rfl rfl rfl rfl
  | close =>
      refine ⟨?_, apart.pending, ?_⟩
      · intro q member
        exact absurd member List.not_mem_nil
      · intro _ _ _ q member
        exact absurd member List.not_mem_nil
  | _ => exact same rfl rfl rfl rfl

namespace Endpoint

variable {s t : Endpoint} {p : UdtPacket} {e : Event}

section Stores

variable {C : View → Act → Prop} (others : ∀ v a, (∀ q, a ≠ .store q) → C v a)
include others

/-- A condition on stored packets alone is one on the packet of a segment. -/
theorem segmentOk_stores (here : C s.view (.store p)) : SegmentOk C s p := by
  refine ⟨fun _ => here, fun _ => ⟨?_, ?_, ?_, ?_, ?_, ?_⟩, ?_, ?_⟩
  all_goals intros; exact others _ _ (by simp)

theorem packetOk_stores (here : ∀ x : Endpoint, x.sk.rcvBuf = s.sk.rcvBuf →
    x.sk.nextBuffer = s.sk.nextBuffer → ∀ q : UdtPacket, q.buffer = p.buffer →
      C x.view (.store q)) : PacketOk C s p where
  free v := others v _ (by simp)
  ack _ v := others v _ (by simp)
  predicted _ _ _ _ := here s rfl rfl p rfl
  plain _ _ x view := segmentOk_stores others
    (here x (congrArg (fun v : View => v.rcvBuf) view) (congrArg (fun v : View => v.nextBuffer) view)
      p rfl)
  syn _ _ := others _ _ (by simp)
  synced _ isSyn x view _ := by
    refine segmentOk_stores others ?_
    rw [handleSyn_counted x isSyn]
    obtain ⟨_, _, _, result⟩ := x.handleSyn_eq p
    have buffer : p.counted.buffer = p.buffer := by
      unfold UdtPacket.counted
      split <;> rfl
    have same : x.sk.rcvBuf = s.sk.rcvBuf := congrArg (fun v : View => v.rcvBuf) view
    have next : x.sk.nextBuffer = s.sk.nextBuffer := congrArg (fun v : View => v.nextBuffer) view
    refine here _ ?_ ?_ _ buffer
    · rw [result]
      split <;> exact same
    · rw [result]
      split <;> exact next

theorem eventOk_stores (here : ∀ buffer, s.sk.rcvPkt = some buffer → ∀ x : Endpoint,
    x.sk.rcvBuf = s.sk.rcvBuf → x.sk.nextBuffer = s.sk.nextBuffer → ∀ q : UdtPacket,
      q.buffer = buffer → C x.view (.store q)) : EventOk C s e := by
  cases e with
  | packet hdr mem n =>
      intro buffer pending _
      exact packetOk_stores others (here buffer pending)
  | slowTimo =>
      intro v on
      exact others v _ (by simp)
  | close =>
      intro v
      exact others v _ (by simp)
  | connect | accept | send | shutdown | setSndBuf | setRcvBuf => exact others _ _ (by simp)
  | _ => trivial

end Stores

theorem eventOk_handed (apart : s.view.Apart) : EventOk Core.Handed s e := by
  refine eventOk_stores (fun v a other q same => absurd same (other q)) ?_
  rintro buffer pending x _ next q rfl _ same
  obtain rfl := Act.store.inj same
  change q.buffer < x.sk.nextBuffer
  rw [next]
  exact apart.pending q.buffer pending

theorem run_apart (fack sndSeq rcvSeq : Word) (env : Env) (es : List Event) :
    ((init fack sndSeq rcvSeq env).run es).Calm ∧
      ((init fack sndSeq rcvSeq env).run es).view.Apart := by
  refine run_invariant (P := fun _ _ => True) (C := Core.Handed) (I := fun v => v.Apart)
    (Trace.Meets.trivial_of es fun _ _ => trivial) (init_calm fack sndSeq rcvSeq env) ?_ ?_ ?_ ?_
  · refine ⟨?_, ?_, ?_⟩
    · intro q member
      exact absurd member List.not_mem_nil
    · intro b here
      contradiction
    · intro _ b _ q member
      exact absurd member List.not_mem_nil
  · intro v q same
    contradiction
  · intro s e _ apart _
    exact eventOk_handed apart
  · intro v a w apart handed step
    exact step.apart apart handed

end Endpoint

/-- The bytes of a word in the other order. -/
theorem ntohl_bytes (a b c d : UChar) :
    let x := ntohl (a.setWidth 32 ||| b.setWidth 32 <<< 8 ||| c.setWidth 32 <<< 16 |||
      d.setWidth 32 <<< 24)
    x.setWidth 8 = d ∧ (x >>> 8).setWidth 8 = c ∧ (x >>> 16).setWidth 8 = b ∧
      (x >>> 24).setWidth 8 = a := by
  intro x
  refine ⟨?_, ?_, ?_, ?_⟩
  all_goals
    apply BitVec.eq_of_getLsbD_eq
    intro i small
    simp only [x, ntohl, htonl, BitVec.getLsbD_setWidth, BitVec.getLsbD_or, BitVec.getLsbD_shiftLeft,
      BitVec.getLsbD_ushiftRight, BitVec.getLsbD_and]
    interval_cases i <;> simp

/-- The byte swap of a window option, byte for byte. -/
theorem swap32_getD (mem : List UChar) {i : Nat} (inside : i + 4 ≤ mem.length) (j : Nat) :
    (store32 mem i (ntohl (load32 mem i))).getD j 0 =
      if i ≤ j ∧ j < i + 4 then mem.getD (2 * i + 3 - j) 0 else mem.getD j 0 := by
  obtain ⟨first, second, third, fourth⟩ := ntohl_bytes (mem.getD i 0) (mem.getD (i + 1) 0)
    (mem.getD (i + 2) 0) (mem.getD (i + 3) 0)
  rw [store32, load32, first, second, third, fourth]
  simp only [List.getD_eq_getElem?_getD, List.getElem?_set, List.length_set]
  by_cases here : i ≤ j ∧ j < i + 4
  · rw [if_pos here]
    have last : i + 3 < mem.length := by omega
    obtain rfl | rfl | rfl | rfl : j = i ∨ j = i + 1 ∨ j = i + 2 ∨ j = i + 3 := by omega
    · have far : 2 * j + 3 - j = j + 3 := by omega
      simp [far, (by omega : j < mem.length)]
    · have far : 2 * i + 3 - (i + 1) = i + 2 := by omega
      simp [far, (by omega : i + 1 < mem.length)]
    · have far : 2 * i + 3 - (i + 2) = i + 1 := by omega
      simp [far, (by omega : i + 2 < mem.length)]
    · have far : 2 * i + 3 - (i + 3) = i := by omega
      simp [far, last]
  · rw [if_neg here, if_neg (by omega), if_neg (by omega), if_neg (by omega), if_neg (by omega)]
theorem getD_of_drop {mem orig : List UChar} {ptr i : Nat} (rest : mem.drop ptr = orig.drop ptr)
    (behind : ptr ≤ i) : mem.getD i 0 = orig.getD i 0 := by
  have same : (mem.drop ptr).getD (i - ptr) 0 = (orig.drop ptr).getD (i - ptr) 0 := by rw [rest]
  rw [List.getD_eq_getElem?_getD, List.getD_eq_getElem?_getD, List.getElem?_drop,
    List.getElem?_drop, Nat.add_sub_cancel' behind] at same
  rwa [List.getD_eq_getElem?_getD, List.getD_eq_getElem?_getD]

/-- The options that `handle_options` meets up to the first SACK: where each starts, and its kind. -/
def optionsMet : Nat → List UChar → Nat → Nat → List (Nat × UChar)
  | 0, _, _, _ => []
  | fuel + 1, mem, ptr, remainLen =>
      if remainLen < UdtOption.sizeofOption then []
      else (ptr, mem.getD ptr 0) ::
        if mem.getD ptr 0 = UdtOption.TCPOPT_CWND then
          if mem.length < ptr + UdtOption.sizeofCwnd then []
          else optionsMet fuel mem (ptr + UdtOption.sizeofCwnd) (remainLen - UdtOption.sizeofCwnd)
        else if mem.getD ptr 0 = UdtOption.TCPOPT_NOP then
          optionsMet fuel mem (ptr + UdtOption.sizeofOption) (remainLen - UdtOption.sizeofOption)
        else []

/-- No window option that reaches from the option area into the payload is told apart by its
payload bytes when it is read backwards. -/
def PayloadKept (met : List (Nat × UChar)) (mem : List UChar) (area len : Nat) : Prop :=
  ∀ o ∈ met, o.2 = UdtOption.TCPOPT_CWND → o.1 + UdtOption.sizeofCwnd ≤ mem.length →
    ∀ i, area ≤ i → i < area + len → i < o.1 + UdtOption.sizeofCwnd →
      mem.getD i 0 = mem.getD (2 * o.1 + 7 - i) 0

theorem optionsMet_zero (fuel : Nat) (mem : List UChar) (ptr : Nat) :
    optionsMet fuel mem ptr 0 = [] := by
  cases fuel with
  | zero => rfl
  | succ fuel => exact if_pos (by decide)

theorem payloadKept_cons {o : Nat × UChar} {met : List (Nat × UChar)} {mem : List UChar}
    {area len : Nat} (kept : o.2 = UdtOption.TCPOPT_CWND →
      o.1 + UdtOption.sizeofCwnd ≤ mem.length → ∀ i, area ≤ i → i < area + len →
        i < o.1 + UdtOption.sizeofCwnd → mem.getD i 0 = mem.getD (2 * o.1 + 7 - i) 0) :
    PayloadKept (o :: met) mem area len ↔ PayloadKept met mem area len := by
  unfold PayloadKept
  rw [List.forall_mem_cons]
  exact and_iff_right kept

theorem drop_of_drop {mem orig : List UChar} {ptr k : Nat} (rest : mem.drop ptr = orig.drop ptr)
    (behind : ptr ≤ k) : mem.drop k = orig.drop k := by
  have same : (mem.drop ptr).drop (k - ptr) = (orig.drop ptr).drop (k - ptr) := by rw [rest]
  rwa [List.drop_drop, List.drop_drop, Nat.add_sub_cancel' behind] at same

namespace UdtPacket

def optionsMet (p : UdtPacket) : List (Nat × UChar) :=
  UdtBoost.optionsMet (p.hdr.off.toNat - UdtHdr.size) p.mem 0 (p.hdr.off.toNat - UdtHdr.size)

def PayloadKept (p : UdtPacket) : Prop :=
  UdtBoost.PayloadKept p.optionsMet p.mem (p.hdr.off.toNat - UdtHdr.size) p.hdr.len.toNat

end UdtPacket

namespace Endpoint

variable {s : Endpoint} {p : UdtPacket}

/-- Where the walk stops short of the payload, memory from there on is as it was. -/
theorem kept_of_drop {met : List (Nat × UChar)} {mem orig : List UChar} {ptr area len : Nat}
    (rest : mem.drop ptr = orig.drop ptr) (below : ptr ≤ area)
    (inside : ∀ o ∈ met, o.2 = UdtOption.TCPOPT_CWND → ¬ o.1 + UdtOption.sizeofCwnd ≤ orig.length) :
    (∀ i, area ≤ i → i < area + len → mem.getD i 0 = orig.getD i 0) ↔
      PayloadKept met orig area len :=
  ⟨fun _ o member cwnd fits => absurd fits (inside o member cwnd),
    fun _ _ behind _ => getD_of_drop rest (below.trans behind)⟩

/-- A window option over the edge of the option area leaves the payload as it is when the bytes
there are the same backwards. -/
theorem kept_of_overhang {mem orig swap : List UChar} {ptr area len : Nat}
    (rest : mem.drop ptr = orig.drop ptr) (inside : ptr + 2 ≤ area)
    (cwnd : orig.getD ptr 0 = UdtOption.TCPOPT_CWND) (fits : ptr + 6 ≤ orig.length)
    (swapped : ∀ j, swap.getD j 0 =
      if ptr + 2 ≤ j ∧ j < ptr + 2 + 4 then mem.getD (2 * (ptr + 2) + 3 - j) 0 else mem.getD j 0) :
    (∀ i, area ≤ i → i < area + len → swap.getD i 0 = orig.getD i 0) ↔
      PayloadKept [(ptr, orig.getD ptr 0)] orig area len := by
  have value : ∀ i, area ≤ i → swap.getD i 0 =
      if i < ptr + 6 then orig.getD (2 * ptr + 7 - i) 0 else orig.getD i 0 := by
    intro i first
    rw [swapped]
    by_cases below : i < ptr + 6
    · have mirror : 2 * (ptr + 2) + 3 - i = 2 * ptr + 7 - i := by omega
      rw [if_pos ⟨by omega, below⟩, if_pos below, mirror, getD_of_drop rest (by omega)]
    · rw [if_neg fun both => below both.2, if_neg below, getD_of_drop rest (by omega)]
  constructor
  · intro same o member _ _ i first last below
    obtain rfl := List.mem_singleton.mp member
    have below : i < ptr + 6 := below
    have same := same i first last
    rw [value i first, if_pos below] at same
    exact same.symm
  · intro kept i first last
    rw [value i first]
    split
    · next below =>
        exact (kept _ (List.mem_singleton_self _) cwnd fits i first last below).symm
    · rfl

theorem handleOptionsLoop_zero (fuel : Nat) (s : Endpoint) (mem : List UChar) (ptr : Nat) :
    s.handleOptionsLoop fuel mem ptr 0 = (mem, s) := by
  cases fuel with
  | zero => rfl
  | succ fuel => exact if_pos (by decide)

theorem handleOptionsLoop_plain (fuel : Nat) (s : Endpoint) (mem orig : List UChar)
    (ptr remainLen area len : Nat) (length : mem.length = orig.length)
    (rest : mem.drop ptr = orig.drop ptr) (sum : ptr + remainLen = area)
    (plain : ∀ o ∈ optionsMet fuel orig ptr remainLen, o.2 ≠ UdtOption.TCPOPT_SACK) :
    ∃ pcwnd mem', s.handleOptionsLoop fuel mem ptr remainLen =
        (mem', { s with cb.pcwnd := pcwnd }) ∧ mem'.length = orig.length ∧
      ((∀ i, area ≤ i → i < area + len → mem'.getD i 0 = orig.getD i 0) ↔
        PayloadKept (optionsMet fuel orig ptr remainLen) orig area len) := by
  induction fuel generalizing s mem ptr remainLen with
  | zero => exact ⟨s.cb.pcwnd, mem, rfl, length, kept_of_drop rest (by omega) (by simp [optionsMet])⟩
  | succ fuel ih =>
      rw [handleOptionsLoop]
      rw [optionsMet] at plain ⊢
      dsimp only
      by_cases short : remainLen < UdtOption.sizeofOption
      · rw [if_pos short, if_pos short]
        exact ⟨s.cb.pcwnd, mem, rfl, length, kept_of_drop rest (by omega) (by simp)⟩
      rw [if_neg short] at plain ⊢
      rw [if_neg short]
      have kind : mem.getD ptr 0 = orig.getD ptr 0 := getD_of_drop rest le_rfl
      obtain ⟨first, others⟩ := List.forall_mem_cons.mp plain
      rw [kind, if_neg first]
      by_cases cwnd : orig.getD ptr 0 = UdtOption.TCPOPT_CWND
      · rw [if_pos cwnd] at others ⊢
        rw [if_pos cwnd, length]
        by_cases outside : orig.length < ptr + UdtOption.sizeofCwnd
        · rw [if_pos outside, if_pos outside]
          refine ⟨s.cb.pcwnd, mem, rfl, length, kept_of_drop rest (by omega) ?_⟩
          simpa using fun _ => outside
        rw [if_neg outside] at others ⊢
        rw [if_neg outside]
        have fits : ptr + 2 + 4 ≤ mem.length := by
          rw [length]
          exact not_lt.mp outside
        have swapped := swap32_getD mem fits
        have behind : (store32 mem (ptr + 2) (ntohl (load32 mem (ptr + 2)))).drop (ptr + 6) =
            orig.drop (ptr + 6) := by
          rw [store32_drop _ _ (by omega), drop_of_drop rest (by omega)]
        have sizes : (store32 mem (ptr + 2) (ntohl (load32 mem (ptr + 2)))).length = orig.length := by
          rw [store32_length, length]
        change ∃ pcwnd mem', ({ s with cb.pcwnd := ntohl (load32 mem (ptr + 2)) } : Endpoint).handleOptionsLoop fuel
          (store32 mem (ptr + 2) (ntohl (load32 mem (ptr + 2)))) (ptr + 6) (remainLen - 6) = _ ∧ _ ∧
            (_ ↔ PayloadKept ((ptr, _) :: optionsMet fuel orig (ptr + 6) (remainLen - 6)) orig area len)
        generalize store32 mem (ptr + 2) (ntohl (load32 mem (ptr + 2))) = swap at swapped behind sizes ⊢
        by_cases within : 6 ≤ remainLen
        · obtain ⟨pcwnd, mem', result, length', kept⟩ :=
            ih { s with cb.pcwnd := ntohl (load32 mem (ptr + 2)) } swap (ptr + 6) (remainLen - 6) sizes
              behind (by omega) others
          refine ⟨pcwnd, mem', result, length', kept.trans (payloadKept_cons ?_).symm⟩
          intro _ _ i first _ last
          have last : i < ptr + 6 := last
          omega
        · have none : remainLen - 6 = 0 := by omega
          rw [none, handleOptionsLoop_zero, optionsMet_zero]
          refine ⟨_, swap, rfl, sizes, ?_⟩
          have more : 2 ≤ remainLen := not_lt.mp short
          exact kept_of_overhang rest (by omega) cwnd (not_lt.mp outside) swapped
      rw [if_neg cwnd] at others ⊢
      rw [if_neg cwnd]
      by_cases nop : orig.getD ptr 0 = UdtOption.TCPOPT_NOP
      · rw [if_pos nop] at others ⊢
        rw [if_pos nop]
        have more : 2 ≤ remainLen := not_lt.mp short
        have behind : mem.drop (ptr + 2) = orig.drop (ptr + 2) := drop_of_drop rest (by omega)
        obtain ⟨pcwnd, mem', result, length', kept⟩ :=
          ih s mem (ptr + 2) (remainLen - 2) length behind (by omega) others
        refine ⟨pcwnd, mem', result, length', kept.trans (payloadKept_cons ?_).symm⟩
        exact fun same => absurd same cwnd
      · rw [if_neg nop, if_neg nop]
        refine ⟨s.cb.pcwnd, mem, rfl, length, kept_of_drop rest (by omega) ?_⟩
        intro o member same
        obtain rfl := List.mem_singleton.mp member
        exact absurd same cwnd

theorem take_drop_eq_iff {mem orig : List UChar} (length : mem.length = orig.length) (a k : Nat) :
    (mem.drop a).take k = (orig.drop a).take k ↔
      ∀ i, a ≤ i → i < a + k → mem.getD i 0 = orig.getD i 0 := by
  constructor
  · intro same i first last
    have same : ((mem.drop a).take k).getD (i - a) 0 = ((orig.drop a).take k).getD (i - a) 0 := by
      rw [same]
    simp only [List.getD_eq_getElem?_getD, List.getElem?_take, List.getElem?_drop,
      Nat.add_sub_cancel' first, if_pos (by omega : i - a < k)] at same ⊢
    exact same
  · intro same
    apply List.ext_getElem?
    intro j
    rw [List.getElem?_take, List.getElem?_take]
    split
    · next inside =>
        rw [List.getElem?_drop, List.getElem?_drop]
        have value := same (a + j) (Nat.le_add_right a j) (by omega)
        by_cases fits : a + j < orig.length
        · rw [List.getD_eq_getElem _ _ (length ▸ fits), List.getD_eq_getElem _ _ fits] at value
          rw [List.getElem?_eq_getElem (length ▸ fits), List.getElem?_eq_getElem fits, value]
        · rw [List.getElem?_eq_none (by omega), List.getElem?_eq_none (by omega)]
    · rfl

/-- The packets before and after the walk over the options: the payload is kept or not. -/
theorem data_rewritten {p : UdtPacket} {mem : List UChar} (area : UdtHdr.size < p.hdr.off.toNat)
    (length : mem.length = p.mem.length) :
    ({ p with mem } : UdtPacket).data = p.data ↔
      ∀ i, p.hdr.off.toNat - UdtHdr.size ≤ i →
        i < p.hdr.off.toNat - UdtHdr.size + p.hdr.len.toNat → mem.getD i 0 = p.mem.getD i 0 := by
  rw [UdtPacket.data_of_le area.le, UdtPacket.data_of_le (p := { p with mem }) area.le]
  exact take_drop_eq_iff length _ _

/-- `handle_options` of a packet without SACK, up to the bytes it rewrites. -/
theorem handleOptions_plain (s : Endpoint) {p : UdtPacket} (area : UdtHdr.size < p.hdr.off.toNat)
    (plain : ∀ o ∈ p.optionsMet, o.2 ≠ UdtOption.TCPOPT_SACK) :
    ∃ pcwnd mem, s.handleOptions p =
        ({ s with cb.pcwnd := pcwnd } : Endpoint).rewritePkt p.buffer mem ∧
      (({ p with mem } : UdtPacket).data = p.data ↔ p.PayloadKept) := by
  obtain ⟨pcwnd, mem, result, length, kept⟩ :=
    handleOptionsLoop_plain (p.hdr.off.toNat - UdtHdr.size) s p.mem p.mem 0
      (p.hdr.off.toNat - UdtHdr.size) (p.hdr.off.toNat - UdtHdr.size) p.hdr.len.toNat rfl rfl
      (Nat.zero_add _) plain
  refine ⟨pcwnd, mem, ?_, (data_rewritten area length).trans kept⟩
  rw [handleOptions, result]

end Endpoint

/-- What header prediction must leave as the general path would. -/
structure Handled where
  rcvBuf : List (UdtHdr × List UChar)
  reasmPkts : List (UdtHdr × List UChar)
  rcvNxt : Word
  /-- Without the mark of a retransmission. -/
  sndBuf : List UdtPacket
  sndUna : Word
  sndWnd : Word
  consumed : Bool
  deriving DecidableEq

namespace Endpoint

variable {s : Endpoint} {p : UdtPacket}

def handled (s : Endpoint) : Handled where
  rcvBuf := s.sk.rcvBuf.pkts.map fun q => (q.hdr, q.data)
  reasmPkts := s.sk.rcvBuf.reasmPkts.map fun q => (q.hdr, q.data)
  rcvNxt := s.cb.rcvNxt
  sndBuf := s.sk.sndBuf.pkts.map UdtPacket.unflagged
  sndUna := s.cb.sndUna
  sndWnd := s.cb.sndWnd
  consumed := s.cb.flags.packetConsumed

section Quiet

variable (out : Endpoint → Endpoint)

/-! The general path with `out` in the place of `output`. -/

def doFastRexmtWith (s : Endpoint) (ack : Word) : Endpoint :=
  let oldNxt := s.cb.sndNxt
  let s := s.handlePacketLost
  let oldSndCwnd := s.cb.sndCwnd
  { out (s.beginFastRexmt ack) with cb.sndCwnd := oldSndCwnd, cb.sndNxt := oldNxt }

def ackDuplicateWith (s : Endpoint) (ti : UdtHdr) : Bool × Endpoint :=
  let tiwin : Word := ti.win.setWidth 32
  if tiwin ≠ s.cb.sndWnd then
    let s := { s with cb := s.cb.updateSndWnd tiwin }
    let s := { s with cb.flags.needOutput := true }
    (false, { s with cb := s.cb.resetRexmtTimer })
  else
    let s := { s with cb.dupacks := s.cb.dupacks + 1 }
    if s.cb.tRexmt = 0 then
      let s := { s with cb.dupacks := 0 }
      (false, { s with cb := s.cb.resetRexmtTimer })
    else if s.canFastRexmt then (true, doFastRexmtWith out { s with cb.rtt := 0 } ti.ack)
    else if sTcprexmtthresh.toInt < s.cb.dupacks.toInt then
      (true, { s with cb.flags.needOutput := true })
    else (false, { s with cb := s.cb.resetRexmtTimer })

def handleAckWith (s : Endpoint) (pkt : UdtPacket) : Bool × Endpoint :=
  let ti := pkt.hdr
  if seqLt ti.ack s.cb.sndUna then (true, s)
  else if seqGt ti.ack s.cb.sndMax then
    (true,
      { s with
        cb.lastError := .malformedPacket
        cb.flags.notifyDrop := true
        cb.flags.needReset := true })
  else
    let s := if s.cb.sndMax = ti.ack then s.updateAckState else s
    let s := if UdtHdr.size < ti.off.toNat then s.handleOptions pkt else s
    if ti.ack = s.cb.sndUna then ackDuplicateWith out s ti else (false, s.ackNewData ti)

theorem handleAckWith_output : handleAckWith output = handleAck := rfl

end Quiet

/-- The general path for an acknowledgement, up to the FIN test: what `output` does in it is left
out. -/
def general (s : Endpoint) (p : UdtPacket) : Bool × Endpoint := handleAckWith id (s.stored p) p

/-- The general path with the FIN test, on the last packet of `rcv_buf`. -/
def generalFin (s : Endpoint) (p : UdtPacket) : Endpoint :=
  match s.general p with
  | (true, t) => t
  | (false, t) => if (s.stored p).sk.rcvBuf.fin then t.handleFin else t

/-- Header prediction, up to its call of `output`. -/
def predicted (s : Endpoint) (p : UdtPacket) : Endpoint :=
  if p.hdr.len = 0 then s.ackPredicted p.hdr.ack
  else
    match s.sk.rcvBuf.append p with
    | some rb => s.storePredicted p.hdr.len rb
    | none => s

/-- The guards of header prediction, where it is taken. -/
structure Predicts (s : Endpoint) (p : UdtPacket) : Prop where
  state : s.cb.state = .established
  flags : hasSyn p.hdr.flags = false ∧ hasFin p.hdr.flags = false ∧ hasAck p.hdr.flags = true
  next : p.hdr.seq = s.cb.rcvNxt
  win : p.hdr.win.setWidth 32 = s.cb.sndWnd
  bare : p.hdr.len = 0 → seqGt p.hdr.ack s.cb.sndUna ∧ seqLe p.hdr.ack s.cb.sndMax
  data : p.hdr.len ≠ 0 → p.hdr.ack = s.cb.sndUna ∧ s.sk.rcvBuf.reasmPkts = [] ∧
    s.sk.rcvBuf.append p = some (s.sk.rcvBuf.take [p] [])

theorem predicts_of_taken (taken : (s.doHeaderPrediction p).1 = true) : s.Predicts p := by
  rw [doHeaderPrediction] at taken
  dsimp only at taken
  split at taken
  case isFalse => contradiction
  case isTrue usual =>
    obtain ⟨state, flags, next, _, win, _⟩ := usual
    have flags := predicted_flags _ flags
    by_cases bare : p.hdr.len = 0
    · rw [if_pos bare] at taken
      split at taken
      case isFalse => contradiction
      case isTrue new =>
        exact ⟨state, flags, next, win, fun _ => ⟨new.1, new.2.1⟩, fun more => absurd bare more⟩
    · rw [if_neg bare] at taken
      split at taken
      case isFalse => contradiction
      case isTrue room =>
        obtain ⟨same, empty, fits⟩ := room
        refine ⟨state, flags, next, win, fun none => absurd none bare, fun _ => ⟨same, empty, ?_⟩⟩
        rw [rcvBuf_append fits, empty]

/-- The fast path calls `output` last, and for an acknowledgement only. -/
theorem doHeaderPrediction_predicted (taken : (s.doHeaderPrediction p).1 = true) :
    s.doHeaderPrediction p =
      (true, if p.hdr.len = 0 then (s.predicted p).outputData else s.predicted p) := by
  obtain missed | ⟨_, _, ⟨bare, _, _, result⟩ | ⟨some_, rb, fits, result⟩⟩ :=
    s.doHeaderPrediction_cases p
  · rw [missed] at taken
    contradiction
  · rw [result, if_pos bare, predicted, if_pos bare]
  · rw [result, if_neg some_, predicted, if_neg some_, fits]

theorem Predicts.stored_bare (predicts : s.Predicts p) (bare : p.hdr.len = 0) :
    s.stored p = s := by
  obtain ⟨noSyn, noFin, _⟩ := predicts.flags
  refine if_neg ?_
  rintro (some_ | flag)
  · exact some_ bare
  · rw [hasFlag_or] at flag
    change (hasSyn p.hdr.flags || hasFin p.hdr.flags) = true at flag
    rw [noSyn, noFin] at flag
    contradiction

/-- With data the general path starts with what the fast path does. -/
theorem Predicts.stored_data (predicts : s.Predicts p) (some_ : p.hdr.len ≠ 0) :
    s.stored p = s.predicted p := by
  obtain ⟨_, empty, fits⟩ := predicts.data some_
  have read : (s.cb.flags.notifyRead || p.hdr.len != 0) = true := by
    rw [bne_iff_ne.mpr some_, Bool.or_true]
  rw [stored, if_pos (.inl some_), TCP_REASS, if_pos ⟨predicts.next, empty⟩, predicted, if_neg some_,
    fits]
  dsimp only
  rw [read]
  rfl

/-- Without SACK the walk over the options changes no packet but `p` itself. -/
theorem acked_plain (s : Endpoint) {p : UdtPacket} (state : s.cb.state = .established)
    (plain : ∀ o ∈ p.optionsMet, o.2 ≠ UdtOption.TCPOPT_SACK) :
    ∃ rewrite : UdtPacket → UdtPacket, (∀ q, q.buffer ≠ p.buffer → rewrite q = q) ∧
      (rewrite p).hdr = p.hdr ∧ ((rewrite p).data = p.data ↔ p.PayloadKept) ∧
      (s.acked p).sk.sndBuf = s.sk.sndBuf ∧
      (s.acked p).sk.rcvBuf.pkts = s.sk.rcvBuf.pkts.map rewrite ∧
      (s.acked p).sk.rcvBuf.reasmPkts = s.sk.rcvBuf.reasmPkts.map rewrite := by
  have same : ∀ x : Endpoint, x = (if s.cb.sndMax = p.hdr.ack then s.updateAckState else s) →
      x.sk.sndBuf = s.sk.sndBuf ∧ x.sk.rcvBuf = s.sk.rcvBuf := by
    rintro x rfl
    split
    · obtain ⟨_, _, _, _, _, _, _, _, _, _, _, _, _, _, result⟩ := s.updateAckState_eq
      rw [result]
      exact ⟨if_neg (by simp [state]), rfl⟩
    · exact ⟨rfl, rfl⟩
  unfold acked
  dsimp only
  generalize here : (if s.cb.sndMax = p.hdr.ack then s.updateAckState else s) = x
  obtain ⟨snd, rcv⟩ := same x here.symm
  split
  · next area =>
      obtain ⟨pcwnd, mem, result, kept⟩ := x.handleOptions_plain area plain
      refine ⟨fun q => if q.buffer = p.buffer then { q with mem } else q, ?_, ?_, ?_, ?_, ?_, ?_⟩
      · exact fun q other => if_neg other
      · dsimp only
        rw [if_pos rfl]
      · dsimp only
        rwa [if_pos rfl]
      · rw [result]
        exact snd
      · rw [result, ← rcv]
        rfl
      · rw [result, ← rcv]
        rfl
  · next noArea =>
      have none : p.hdr.off.toNat - UdtHdr.size = 0 := by omega
      have kept : p.PayloadKept := by
        rw [UdtPacket.PayloadKept, UdtPacket.optionsMet, none]
        intro o member
        exact absurd member List.not_mem_nil
      refine ⟨id, fun _ _ => rfl, rfl, ⟨fun _ => kept, fun _ => rfl⟩, snd, ?_, ?_⟩
      · rw [rcv, List.map_id]
      · rw [rcv, List.map_id]

/-- What is compared of a state, but for the buffers. -/
theorem acked_numbers (s : Endpoint) (p : UdtPacket) :
    (s.acked p).cb.rcvNxt = s.cb.rcvNxt ∧ (s.acked p).cb.sndUna = s.cb.sndUna ∧
      (s.acked p).cb.sndWnd = s.cb.sndWnd ∧
      (s.acked p).cb.flags.packetConsumed = s.cb.flags.packetConsumed := by
  obtain ⟨_, _, _, _, _, _, _, _, _, _, _, _, _, _, _, _, _, _, _, _, result⟩ := s.acked_eq p
  rw [result]
  exact ⟨rfl, rfl, rfl, rfl⟩

theorem acked_established (p : UdtPacket) (state : s.cb.state = .established) :
    (s.acked p).cb.state = .established := by
  obtain ⟨_, _, _, _, _, _, _, _, _, _, _, _, _, _, _, _, _, _, _, _, result⟩ := s.acked_eq p
  rw [result, state]
  exact ite_self _

/-- A duplicate acknowledgement with the same window changes nothing that is compared. -/
theorem ackDuplicateWith_handled (s : Endpoint) {ti : UdtHdr}
    (win : ti.win.setWidth 32 = s.cb.sndWnd) : (ackDuplicateWith id s ti).2.handled = s.handled := by
  rw [ackDuplicateWith]
  dsimp only
  rw [if_neg (not_not.mpr win)]
  split
  · obtain ⟨_, _, timer⟩ := resetRexmtTimer_eq { s.cb with dupacks := 0 }
    dsimp only
    rw [timer]
    rfl
  split
  · obtain ⟨_, _, _, _, _, _, pkts, _, result, same⟩ := beginFastRexmt_eq
      ({ s with cb.dupacks := s.cb.dupacks + 1, cb.rtt := 0 } : Endpoint) ti.ack
    rw [doFastRexmtWith]
    dsimp only [id]
    rw [result]
    unfold handled
    dsimp only at same ⊢
    rw [same]
  split
  · rfl
  · obtain ⟨_, _, timer⟩ := resetRexmtTimer_eq { s.cb with dupacks := s.cb.dupacks + 1 }
    dsimp only
    rw [timer]
    rfl

theorem handleAckWith_acked (s : Endpoint) {p : UdtPacket} (accepts : s.acceptsAck p.hdr) :
    handleAckWith id s p =
      if p.hdr.ack = s.cb.sndUna then ackDuplicateWith id (s.acked p) p.hdr
      else (false, (s.acked p).ackNewData p.hdr) := by
  have una := (s.acked_numbers p).2.1
  have acked : s.acked p = if UdtHdr.size < p.hdr.off.toNat then
    (if s.cb.sndMax = p.hdr.ack then s.updateAckState else s).handleOptions p
    else if s.cb.sndMax = p.hdr.ack then s.updateAckState else s := rfl
  rw [handleAckWith]
  dsimp only
  rw [if_neg accepts.1, if_neg accepts.2, ← acked, una]

theorem map_apart {rewrite : UdtPacket → UdtPacket} {ps : List UdtPacket}
    (others : ∀ q, q.buffer ≠ p.buffer → rewrite q = q) (apart : ∀ q ∈ ps, q.buffer ≠ p.buffer) :
    ps.map rewrite = ps := by
  rw [List.map_congr_left fun q member => others q (apart q member), List.map_id']

/-- What an acknowledgement leaves of a queue depends on its number alone. -/
theorem rest_unique {ack : Word} {gone rest gone' rest' : List UdtPacket}
    (same : gone ++ rest = gone' ++ rest') (below : ∀ q ∈ gone, seqLt q.hdr.seq ack)
    (kept : ∀ q, rest.head? = some q → seqGe q.hdr.seq ack)
    (below' : ∀ q ∈ gone', seqLt q.hdr.seq ack)
    (kept' : ∀ q, rest'.head? = some q → seqGe q.hdr.seq ack) : rest = rest' := by
  have drops : ∀ gone rest : List UdtPacket, (∀ q ∈ gone, seqLt q.hdr.seq ack) →
      (∀ q, rest.head? = some q → seqGe q.hdr.seq ack) →
      (gone ++ rest).dropWhile (fun q => decide (seqLt q.hdr.seq ack)) = rest := by
    intro gone rest below kept
    rw [List.dropWhile_append_of_pos fun q member => by simpa using below q member]
    cases rest with
    | nil => rfl
    | cons q rest =>
        refine List.dropWhile_cons_of_neg ?_
        rw [decide_eq_true_eq]
        exact kept q rfl
  rw [← drops gone rest below kept, same, drops gone' rest' below' kept']

theorem Predicts.bare_handled (predicts : s.Predicts p) (bare : p.hdr.len = 0)
    (plain : ∀ o ∈ p.optionsMet, o.2 ≠ UdtOption.TCPOPT_SACK)
    (apart : ∀ q ∈ s.view.received, q.buffer ≠ p.buffer) :
    (s.general p).1 = false ∧ (s.general p).2.cb.state = .established ∧
      (s.general p).2.handled = (s.predicted p).handled := by
  obtain ⟨above, sent⟩ := predicts.bare bare
  have accepts : s.acceptsAck p.hdr := by
    refine ⟨?_, not_not.mpr sent⟩
    rw [seqGt_iff] at above
    rw [seqLt_iff]
    omega
  have new : p.hdr.ack ≠ s.cb.sndUna := by
    intro same
    rw [same, seqGt_iff] at above
    simp at above
  obtain ⟨rewrite, others, _, _, snd, rcv, reasm⟩ := s.acked_plain predicts.state plain
  obtain ⟨nxt, _, _, consumed⟩ := s.acked_numbers p
  have state := s.acked_established p predicts.state
  have rcv : (s.acked p).sk.rcvBuf.pkts = s.sk.rcvBuf.pkts :=
    rcv.trans (map_apart others fun q member => apart q (List.mem_append_left _ member))
  have reasm : (s.acked p).sk.rcvBuf.reasmPkts = s.sk.rcvBuf.reasmPkts :=
    reasm.trans (map_apart others fun q member => apart q (List.mem_append_right _ member))
  rw [general, predicts.stored_bare bare, s.handleAckWith_acked accepts, if_neg new, predicted,
    if_pos bare]
  generalize s.acked p = x at snd rcv reasm nxt consumed state ⊢
  obtain ⟨gone, rest, _, _, _, _, split, below, kept, slow⟩ := x.ackNewData_eq p.hdr
  obtain ⟨gone', rest', _, _, _, split', below', kept', fast⟩ := s.ackPredicted_eq p.hdr.ack
  have same : rest = rest' := by
    have queue : gone ++ rest = gone' ++ rest' := by rw [← split, ← split', snd]
    exact rest_unique queue below kept below' kept'
  rw [slow, fast]
  refine ⟨rfl, state, ?_⟩
  unfold handled
  dsimp only [UdtBuf.dropFront]
  rw [rcv, reasm, nxt, consumed, same, predicts.win]

/-- The acknowledgement of a segment that was appended just now, and acknowledges nothing new. -/
theorem appended_handled {before : List UdtPacket} (state : s.cb.state = .established)
    (queue : s.sk.rcvBuf.pkts = before ++ [p]) (apart : ∀ q ∈ before, q.buffer ≠ p.buffer)
    (empty : s.sk.rcvBuf.reasmPkts = []) (accepts : s.acceptsAck p.hdr)
    (ack : p.hdr.ack = s.cb.sndUna) (win : p.hdr.win.setWidth 32 = s.cb.sndWnd)
    (plain : ∀ o ∈ p.optionsMet, o.2 ≠ UdtOption.TCPOPT_SACK) :
    (handleAckWith id s p).2.handled = s.handled ↔ p.PayloadKept := by
  obtain ⟨rewrite, others, hdr, kept, snd, rcv, reasm⟩ := s.acked_plain state plain
  obtain ⟨nxt, una, wnd, consumed⟩ := s.acked_numbers p
  rw [handleAckWith_acked s accepts, if_pos ack, ackDuplicateWith_handled _ (win.trans wnd.symm),
    ← kept]
  rw [queue, List.map_append, map_apart others apart] at rcv
  rw [empty] at reasm
  generalize s.acked p = x at snd rcv reasm nxt una wnd consumed ⊢
  unfold handled
  rw [nxt, una, wnd, consumed, snd, reasm, rcv, queue, empty]
  simp [hdr]

theorem Predicts.data_handled (predicts : s.Predicts p) (some_ : p.hdr.len ≠ 0)
    (plain : ∀ o ∈ p.optionsMet, o.2 ≠ UdtOption.TCPOPT_SACK)
    (apart : ∀ q ∈ s.view.received, q.buffer ≠ p.buffer) :
    (s.general p).2.handled = (s.predicted p).handled ↔
      (seqLe s.cb.sndUna s.cb.sndMax → p.PayloadKept) := by
  obtain ⟨ack, empty, fits⟩ := predicts.data some_
  have fast : s.predicted p = s.storePredicted p.hdr.len (s.sk.rcvBuf.take [p] []) := by
    rw [predicted, if_neg some_, fits]
  have old : ¬ seqLt p.hdr.ack s.cb.sndUna := by
    rw [ack, seqLt_iff]
    simp
  rw [general, predicts.stored_data some_, fast]
  by_cases inside : seqLe s.cb.sndUna s.cb.sndMax
  · have whole := appended_handled (s := s.storePredicted p.hdr.len (s.sk.rcvBuf.take [p] []))
      predicts.state rfl (fun q member => apart q (List.mem_append_left _ member)) rfl
      ⟨old, ack ▸ not_not.mpr inside⟩ ack predicts.win plain
    rw [whole]
    exact ⟨fun kept _ => kept, fun kept => kept inside⟩
  · have beyond : seqGt p.hdr.ack s.cb.sndMax := ack ▸ inside
    have result : handleAckWith id (s.storePredicted p.hdr.len (s.sk.rcvBuf.take [p] [])) p =
        (true, { s.storePredicted p.hdr.len (s.sk.rcvBuf.take [p] []) with
          cb.lastError := .malformedPacket
          cb.flags.notifyDrop := true
          cb.flags.needReset := true }) := (if_neg old).trans (if_pos beyond)
    rw [result]
    exact ⟨fun _ both => absurd both inside, fun _ => rfl⟩

/-- With the FIN test the general path of an acknowledgement also handles a FIN that is last in
`rcv_buf`. -/
theorem Predicts.generalFin_bare (predicts : s.Predicts p) (bare : p.hdr.len = 0)
    (plain : ∀ o ∈ p.optionsMet, o.2 ≠ UdtOption.TCPOPT_SACK)
    (apart : ∀ q ∈ s.view.received, q.buffer ≠ p.buffer) :
    (s.generalFin p).handled = (s.predicted p).handled ↔ s.sk.rcvBuf.fin = false := by
  obtain ⟨passed, state, same⟩ := predicts.bare_handled bare plain apart
  have stored := predicts.stored_bare bare
  unfold generalFin
  generalize s.general p = result at passed state same ⊢
  obtain ⟨_ | _, t⟩ := result
  case true => contradiction
  rw [stored]
  dsimp only at state same ⊢
  cases fin : s.sk.rcvBuf.fin with
  | false => exact ⟨fun _ => rfl, fun _ => same⟩
  | true =>
      rw [if_pos rfl, ← same]
      obtain ⟨_, _, result⟩ := t.handleFin_eq
      have fresh : t.cb.TCPS_HAVERCVDFIN = false := by
        rw [UdtCb.TCPS_HAVERCVDFIN, state]
        rfl
      rw [result, fresh]
      constructor
      · intro both
        have nxt : t.cb.rcvNxt + 1 = t.cb.rcvNxt := congrArg Handled.rcvNxt both
        bv_omega
      · intro contra
        contradiction

theorem Predicts.generalFin_data (predicts : s.Predicts p) (some_ : p.hdr.len ≠ 0) :
    s.generalFin p = (s.general p).2 := by
  obtain ⟨_, _, fits⟩ := predicts.data some_
  have fin : (s.stored p).sk.rcvBuf.fin = false := by
    rw [predicts.stored_data some_, predicted, if_neg some_, fits]
    simpa [storePredicted, UdtRcvBuf.take, UdtBuf.fin] using predicts.flags.2.1
  unfold generalFin
  rw [fin]
  generalize s.general p = result
  obtain ⟨_ | _, t⟩ := result <;> rfl

theorem entered_received (s : Endpoint) (p : UdtPacket) :
    (s.entered p).view.received = s.view.received := by
  obtain ⟨_, _, _, _, _, _, _, result⟩ := s.entered_eq p
  rw [result]
  rfl

/-- For each packet without SACK that header prediction takes in a state of a run, the general
path leaves the same if no window option swaps bytes of the payload, and with the FIN test if no
FIN waits in front of a bare acknowledgement. -/
theorem prediction_agrees_iff (fack sndSeq rcvSeq : Word) (env : Env) (es : List Event) (e : Event)
    (p : UdtPacket) (here : ((init fack sndSeq rcvSeq env).run es).arriving e = some p)
    (plain : ∀ o ∈ p.optionsMet, o.2 ≠ UdtOption.TCPOPT_SACK)
    (taken : ((((init fack sndSeq rcvSeq env).run es).entered p).doHeaderPrediction p).1 = true) :
    let s := ((init fack sndSeq rcvSeq env).run es).entered p
    let kept := p.hdr.len ≠ 0 → seqLe s.cb.sndUna s.cb.sndMax → p.PayloadKept
    ((s.general p).2.handled = (s.predicted p).handled ↔ kept) ∧
      ((s.generalFin p).handled = (s.predicted p).handled ↔
        kept ∧ (p.hdr.len = 0 → s.sk.rcvBuf.fin = false)) := by
  intro s kept
  have predicts : s.Predicts p := predicts_of_taken taken
  obtain ⟨calm, apart⟩ := run_apart fack sndSeq rcvSeq env es
  have apart : ∀ q ∈ s.view.received, q.buffer ≠ p.buffer := by
    obtain ⟨_, _, _, buffer, _, _, pending, _, same⟩ := arriving_inv here
    have own := apart.apart calm.consumed buffer pending
    have unread := ((init fack sndSeq rcvSeq env).run es).entered_received p
    rw [same]
    exact fun q member => own q (unread ▸ member)
  by_cases bare : p.hdr.len = 0
  · have vacuous : kept := fun some_ => absurd bare some_
    refine ⟨⟨fun _ => vacuous, fun _ => (predicts.bare_handled bare plain apart).2.2⟩, ?_⟩
    rw [predicts.generalFin_bare bare plain apart]
    exact ⟨fun fin => ⟨vacuous, fun _ => fin⟩, fun both => both.2 bare⟩
  · have whole : (s.general p).2.handled = (s.predicted p).handled ↔ kept := by
      rw [predicts.data_handled bare plain apart]
      exact ⟨fun kept _ => kept, fun kept => kept bare⟩
    rw [predicts.generalFin_data bare]
    exact ⟨whole, whole.trans ⟨fun kept => ⟨kept, fun none => absurd none bare⟩, fun both => both.1⟩⟩

/-- An active open that the peer has answered. -/
def opened : List Event :=
  [.connect 0, .datagram ⟨0, UdtHdr.TH_SYN ||| UdtHdr.TH_ACK, 1000, 0, 20, 100, 1, 0⟩ []]

/-- Four bytes of payload behind an option of two bytes. -/
def fourBytes (kind : UChar) : UdtPacket :=
  ⟨⟨0, UdtHdr.TH_ACK, 1000, 4, 22, 101, 1, 0⟩, [kind, 0, 1, 2, 3, 4], 2⟩

theorem prediction_agrees_nop :
    let p := fourBytes UdtOption.TCPOPT_NOP
    let s := ((init 0 0 0 Env.zero).run opened).entered p
    (s.general p).2.handled = (s.predicted p).handled := by
  intro p s
  have met : p.optionsMet = [(0, UdtOption.TCPOPT_NOP)] := by decide
  refine (prediction_agrees_iff 0 0 0 Env.zero opened (.datagram p.hdr p.mem) p (by decide +kernel)
    (by decide) (by decide +kernel)).1.mpr ?_
  intro _ _ o member cwnd
  rw [met] at member
  obtain rfl := List.mem_singleton.mp member
  contradiction

/-- A window option of two bytes has the general path turn the payload around. -/
theorem short_cwnd_turns_payload :
    let p := fourBytes UdtOption.TCPOPT_CWND
    let s := ((init 0 0 0 Env.zero).run opened).entered p
    ((init 0 0 0 Env.zero).run opened).arriving (.datagram p.hdr p.mem) = some p ∧
      (∀ o ∈ p.optionsMet, o.2 ≠ UdtOption.TCPOPT_SACK) ∧ (s.doHeaderPrediction p).1 = true ∧
      (s.predicted p).sk.rcvBuf.pkts.map UdtPacket.data = [[], [1, 2, 3, 4]] ∧
      (s.general p).2.sk.rcvBuf.pkts.map UdtPacket.data = [[], [4, 3, 2, 1]] ∧
      (s.general p).2.handled ≠ (s.predicted p).handled := by
  decide +kernel

end Endpoint

end UdtBoost
