import UdtBoost.Peering

/-! A datagram of the peer, as it lies in the memory of the endpoint that it reaches. -/
namespace UdtBoost

open UdtOption

section Options

variable {area : Nat} {w y : OptionWalk}

theorem OptionWalk.Safe.keeps (walk : Safe area w y) : w.Placed area →
    y.mem.length = w.mem.length ∧ y.mem.drop area = w.mem.drop area := by
  induction walk with
  | finished => exact fun _ => ⟨rfl, rfl⟩
  | ended => exact fun _ => ⟨rfl, rfl⟩
  | @option w x y more inside step _ _ ih =>
      intro placed
      rw [placed.toInt] at more
      have enough := (placed.inside_iff (by omega)).mp inside
      have consumes := placed.next_consumes step enough
      obtain ⟨length, behind⟩ := ih (placed.next consumes enough)
      have split : area = (w.ptr.toNat + w.width) + (area - (w.ptr.toNat + w.width)) := by
        have sum := placed.sum
        omega
      refine ⟨length.trans consumes.length, behind.trans ?_⟩
      rw [split, ← List.drop_drop, consumes.rest, List.drop_drop]

/-- Options that are walked safely are all that is rewritten. -/
theorem UdtPacket.walked_of_safe {s : Endpoint} {p : UdtPacket}
    (fits : p.hdr.off.toNat - UdtHdr.size ≤ p.mem.length)
    (walk : OptionWalk.Safe (p.hdr.off.toNat - UdtHdr.size) (.start s p) y) : p.Walked p.options.2 := by
  have placed := OptionWalk.start_placed s fits
  have loop := walk.handleOptionsLoop_eq placed (Nat.le_refl _)
  rw [OptionWalk.start_remainLen] at loop
  have read := (s.handleOptionsLoop_path (C := fun _ _ => True) (p.hdr.off.toNat - UdtHdr.size) p p.mem 0
    (p.hdr.off.toNat - UdtHdr.size) fun _ _ _ => trivial).2
  have mem : p.options.2 = y.mem := by
    rw [UdtPacket.options, ← read]
    exact congrArg Prod.fst loop
  obtain ⟨length, behind⟩ := walk.keeps placed
  rw [mem]
  exact ⟨length, behind⟩

theorem OptionWalk.Placed.optionWalk_next {x : OptionWalk} (placed : w.Placed area)
    (step : w.next = some x) (enough : w.width ≤ w.remainLen.toNat) (fuel : Nat) :
    (optionWalk (fuel + 1) w.mem w.ptr.toNat w.remainLen.toNat).1 =
      (if w.kind = TCPOPT_SACK then (List.range w.size).map
        (UdtOptionSack.pairSeq (UdtOptionSack.ntoh w.mem w.ptr.toNat w.size) w.ptr.toNat) else []) ++
      (optionWalk fuel x.mem x.ptr.toNat x.remainLen.toNat).1 := by
  obtain ⟨sum, fits, _⟩ := id placed
  have consumes := placed.next_consumes step enough
  have more := w.sizeofOption_le_width
  rw [consumes.ptr, consumes.remainLen, optionWalk, if_neg (by omega)]
  have kinds := exists_next_iff.mp ⟨x, step⟩
  unfold OptionWalk.next at step
  unfold width at enough ⊢
  by_cases sack : w.kind = TCPOPT_SACK
  · rw [if_pos sack] at step enough ⊢
    obtain rfl := Option.some.inj step
    rw [if_pos sack]
    refine congrArg Prod.fst ((if_pos sack).trans (if_neg ?_))
    change ¬ w.mem.length < w.ptr.toNat + (sizeofOption + sizeofPair * w.size)
    omega
  rw [if_neg sack] at step enough ⊢
  rw [if_neg sack, List.nil_append]
  refine congrArg Prod.fst ((if_neg sack).trans ?_)
  by_cases cwnd : w.kind = TCPOPT_CWND
  · rw [if_pos cwnd] at step enough ⊢
    obtain rfl := Option.some.inj step
    exact (if_pos cwnd).trans (if_neg (by omega))
  rw [if_neg cwnd] at step enough ⊢
  have nop := (kinds.resolve_left sack).resolve_left cwnd
  rw [if_pos nop] at step
  obtain rfl := Option.some.inj step
  exact (if_neg cwnd).trans (if_pos nop)

/-- The blocks that a SACK option was written with. -/
theorem OptionWalk.Placed.sack_blocks {pairs : List PairSeq} {rest : List UChar} (placed : w.Placed area)
    (few : pairs.length ≤ MAX_PAIR_SEQS)
    (starts : w.bytes = TCPOPT_SACK :: BitVec.ofNat 8 (sizeofOption + sizeofPair * pairs.length) ::
      (UdtOptionSack.wire pairs ++ rest)) :
    w.kind = TCPOPT_SACK ∧ (List.range w.size).map
      (UdtOptionSack.pairSeq (UdtOptionSack.ntoh w.mem w.ptr.toNat w.size) w.ptr.toNat) = pairs := by
  obtain ⟨_, kind, len⟩ := placed.head_of_bytes starts
  have lenNat : w.len.toNat = sizeofOption + sizeofPair * pairs.length := by
    rw [len, BitVec.toNat_ofNat]
    unfold MAX_PAIR_SEQS at few
    unfold sizeofOption sizeofPair
    omega
  have size : w.size = pairs.length := by
    rw [OptionWalk.size, UdtOptionSack.size_long (by omega), lenNat, Nat.add_sub_cancel_left,
      Nat.mul_div_cancel_left _ (by decide)]
  have behind := placed.mem_drop_option starts
  rw [List.append_assoc] at behind
  rw [size]
  exact ⟨kind, UdtOptionSack.ntoh_wire behind⟩

theorem OptionWalk.Placed.optionWalk_empty (placed : w.Placed area) (none : w.bytes = []) (fuel : Nat) :
    (optionWalk fuel w.mem w.ptr.toNat w.remainLen.toNat).1 = [] := by
  have empty : w.remainLen.toNat = 0 := by
    rw [← placed.length, none]
    rfl
  cases fuel with
  | zero => rfl
  | succ fuel =>
      rw [empty, optionWalk, if_pos (by decide)]

theorem OptionWalk.Placed.walk_blocks {cwnd : Word} {q : List UdtPacket} (placed : w.Placed area)
    (starts : w.bytes = cwndBytes cwnd ++ sackArea q) {fuel : Nat} (enough : w.remainLen.toNat ≤ fuel)
    {b : PairSeq} (member : b ∈ (optionWalk fuel w.mem w.ptr.toNat w.remainLen.toNat).1) :
    b ∈ UdtOptionSack.blocks q sackSpace := by
  have length := placed.length
  rw [starts, List.length_append] at length
  have wide : (cwndBytes cwnd).length = 6 := rfl
  obtain ⟨_, kind, _⟩ := placed.head_of_bytes starts
  obtain ⟨x, step, within, after, rest, _⟩ := placed.next_cwnd starts
  obtain ⟨fuel, rfl⟩ : ∃ n, fuel = n + 1 := ⟨fuel - 1, by omega⟩
  have other : ¬ w.kind = TCPOPT_SACK := by rw [kind]; decide
  rw [placed.optionWalk_next step within, if_neg other, List.nil_append] at member
  by_cases none : q = []
  · rw [sackArea, if_pos none] at rest
    rw [after.optionWalk_empty rest] at member
    exact absurd member List.not_mem_nil
  rw [sackArea, if_neg none] at rest
  have few : (UdtOptionSack.blocks q sackSpace).length ≤ MAX_PAIR_SEQS :=
    (List.length_take_le _ _).trans (Nat.min_le_left _ _)
  have rest := rest.trans (by rw [List.append_nil]; rfl :
    _ = TCPOPT_SACK :: BitVec.ofNat 8 (sizeofOption +
      sizeofPair * (UdtOptionSack.blocks q sackSpace).length) ::
        (UdtOptionSack.wire (UdtOptionSack.blocks q sackSpace) ++ []))
  obtain ⟨y, step', within', after', rest', _⟩ := after.next_sack few rest
  obtain ⟨sack, pairs⟩ := after.sack_blocks few rest
  obtain ⟨fuel, rfl⟩ : ∃ n, fuel = n + 1 := ⟨fuel - 1, by omega⟩
  rw [after.optionWalk_next step' within', if_pos sack, pairs, after'.optionWalk_empty rest',
    List.append_nil] at member
  exact member

end Options

/-- The datagram fills the front of the memory, and is no larger than a datagram can be. -/
structure Datagram.Fills (w : Datagram) (hdr : UdtHdr) (mem : List UChar) (n : Nat) : Prop where
  hdr : hdr = w.hdr
  body : w.body <+: mem
  count : n = UdtHdr.size + w.body.length
  small : n < 2 ^ 16

instance (w : Datagram) (hdr : UdtHdr) (mem : List UChar) (n : Nat) : Decidable (w.Fills hdr mem n) :=
  decidable_of_iff (hdr = w.hdr ∧ w.body <+: mem ∧ n = UdtHdr.size + w.body.length ∧ n < 2 ^ 16)
    ⟨fun ⟨hdr, body, count, small⟩ => ⟨hdr, body, count, small⟩,
      fun fills => ⟨fills.hdr, fills.body, fills.count, fills.small⟩⟩

section Arrival

variable {w : Datagram} {hdr : UdtHdr} {mem stream : List UChar} {n : Nat} {ended : Prop}

theorem Datagram.Tells.arrived (tells : w.Tells 1 stream) (fills : w.Fills hdr mem n) (buffer : Nat) :
    (Endpoint.hostPacket hdr mem buffer).Sound ∧
      (mem.drop (hdr.ntoh.off.toNat - UdtHdr.size)).take hdr.ntoh.len.toNat = w.payload := by
  obtain ⟨rfl, body, rfl, small⟩ := fills
  have whole := tells.whole.2.2
  have off := tells.off
  have longer := body.length_le
  refine ⟨⟨off, ?_, ?_⟩, ?_⟩
  · change w.hdr.ntoh.off.toNat + w.hdr.ntoh.len.toNat ≤ UdtHdr.size + mem.length
    omega
  · change w.hdr.ntoh.off.toNat + w.hdr.ntoh.len.toNat < 2 ^ 16
    omega
  · have length : w.payload.length = w.hdr.ntoh.len.toNat := by
      rw [Datagram.payload, List.length_drop]
      omega
    rw [← length]
    exact (List.prefix_iff_eq_take.mp (body.drop _)).symm

/-- What arrived is what the peer says of its stream. -/
theorem Datagram.Tells.genuine (tells : w.Tells 1 stream) (over_ : hasFin w.hdr.flags = true → ended)
    (fills : w.Fills hdr mem n) (buffer : Nat) :
    (Endpoint.hostPacket hdr mem buffer).Genuine stream ended := by
  obtain ⟨sound, payload⟩ := tells.arrived fills buffer
  have data : (Endpoint.hostPacket hdr mem buffer).data = w.payload :=
    (UdtPacket.data_of_le sound.off).trans payload
  obtain ⟨rfl, -⟩ := fills
  refine ⟨sound, ?_, fun fin => ⟨over_ fin, tells.fin fin⟩⟩
  rw [data]
  exact tells.data

/-- A packet without data may have any number. -/
theorem UdtPacket.Genuine.renumber {q : UdtPacket} (genuine : q.Genuine stream ended)
    (none : q.data = []) (noFin : hasFin q.hdr.flags = false) (seq : Word) :
    UdtPacket.Genuine stream ended { q with hdr.seq := seq } := by
  have off := genuine.sound.off
  have off' : UdtHdr.size ≤ ({ q with hdr.seq := seq } : UdtPacket).hdr.off.toNat := off
  have data : UdtPacket.data { q with hdr.seq := seq } = [] := by
    rw [UdtPacket.data_of_le off] at none
    rw [UdtPacket.data_of_le off']
    exact none
  refine ⟨⟨off, genuine.sound.inside, genuine.sound.small⟩, ?_, fun fin => ?_⟩
  · rw [data]
    exact Excerpt.at_nil _ _ _
  · exact absurd (fin.symm.trans noFin) (by decide)

theorem Datagram.Tells.counted_genuine (tells : w.Tells 1 stream)
    (over_ : hasFin w.hdr.flags = true → ended) (fills : w.Fills hdr mem n) (buffer : Nat) :
    (Endpoint.hostPacket hdr mem buffer).counted.Genuine stream ended ∧
      (Endpoint.hostPacket hdr mem buffer).Alike (Endpoint.hostPacket hdr mem buffer).counted := by
  have genuine := tells.genuine over_ fills buffer
  have payload := (tells.arrived fills buffer).2
  have same := fills.hdr
  unfold UdtPacket.counted
  split
  case isFalse => exact ⟨genuine, Nat.le_refl _, rfl, rfl⟩
  case isTrue isSyn =>
    have isSyn : hasSyn w.hdr.flags = true := same ▸ isSyn
    obtain ⟨_, none, noFin⟩ := tells.syn isSyn
    have empty : (Endpoint.hostPacket hdr mem buffer).data = [] :=
      (UdtPacket.data_of_le genuine.sound.off).trans (payload.trans none)
    have plain : hasFin (Endpoint.hostPacket hdr mem buffer).hdr.flags = false := same ▸ noFin
    exact ⟨genuine.renumber empty plain _, Nat.le_refl _, rfl, rfl⟩

theorem UdtPacket.walked_of_bare {p : UdtPacket} (off : p.hdr.off.toNat = UdtHdr.size) :
    p.Walked p.options.2 := by
  rw [UdtPacket.options, off, Nat.sub_self]
  exact ⟨rfl, rfl⟩

theorem Transmission.Real.options {d : Transmission} (real : d.Real) (fills : d.dgram.Fills hdr mem n)
    (buffer : Nat) : (Endpoint.hostPacket hdr mem buffer).hdr.off.toNat = UdtHdr.size ∨
      ((Endpoint.hostPacket hdr mem buffer).hdr.off.toNat - UdtHdr.size ≤ mem.length ∧
        ∃ s, (OptionWalk.start s (Endpoint.hostPacket hdr mem buffer)).bytes =
          cwndBytes d.before.cb.sndCwnd ++ sackArea d.before.sk.rcvBuf.reasmPkts) := by
  obtain ⟨s, pkt, nxt, c', before, choice, sends⟩ := real
  obtain ⟨opts, body, off, composed⟩ := sends.body
  have here : (Endpoint.hostPacket hdr mem buffer).hdr = d.hdr := by
    rw [fills.hdr]
    rfl
  by_cases isAck : hasAck d.hdr.flags = true
  case neg =>
    left
    rw [if_neg isAck] at composed
    rw [here, off, composed]
    rfl
  case pos =>
    right
    rw [if_pos isAck] at composed
    have short := d.before.composeOptions_length
    rw [← composed] at short
    have area : (Endpoint.hostPacket hdr mem buffer).hdr.off.toNat - UdtHdr.size = opts.length := by
      rw [here, off, BitVec.toNat_ofNat]
      unfold UdtHdr.size
      omega
    have front : opts <+: mem := by
      have inside := fills.body
      rw [body] at inside
      exact (List.prefix_append _ _).trans inside
    refine ⟨area ▸ front.length_le, s, ?_⟩
    rw [OptionWalk.bytes, OptionWalk.start_remainLen, area, ← composeOptions_eq, ← composed]
    exact (List.prefix_iff_eq_take.mp front).symm

theorem Transmission.Real.walked {d : Transmission} (real : d.Real) (fills : d.dgram.Fills hdr mem n)
    (buffer : Nat) :
    (Endpoint.hostPacket hdr mem buffer).Walked (Endpoint.hostPacket hdr mem buffer).options.2 := by
  rcases real.options fills buffer with bare | ⟨fits, s, starts⟩
  · exact UdtPacket.walked_of_bare bare
  · have placed := OptionWalk.start_placed s fits
    obtain ⟨y, walk, _⟩ := placed.walk starts
    exact UdtPacket.walked_of_safe fits walk

theorem UdtPacket.blocks_of_bare {p : UdtPacket} (off : p.hdr.off.toNat = UdtHdr.size) :
    p.options.1 = [] := by
  rw [UdtPacket.options, off, Nat.sub_self]
  rfl

/-- The blocks of a segment were in the queue when it was sent. -/
theorem Transmission.Real.blocks {d : Transmission} (real : d.Real) (fills : d.dgram.Fills hdr mem n)
    (buffer : Nat) {b : PairSeq} (member : b ∈ (Endpoint.hostPacket hdr mem buffer).options.1) :
    b ∈ UdtOptionSack.blocks d.before.sk.rcvBuf.reasmPkts sackSpace := by
  rcases real.options fills buffer with bare | ⟨fits, s, starts⟩
  · rw [UdtPacket.blocks_of_bare bare] at member
    exact absurd member List.not_mem_nil
  · have placed := OptionWalk.start_placed s fits
    refine placed.walk_blocks starts (Nat.le_of_eq (OptionWalk.start_remainLen _ _)) ?_
    rw [UdtPacket.options] at member
    rw [OptionWalk.start_remainLen]
    exact member

end Arrival

end UdtBoost
