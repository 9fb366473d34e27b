import UdtBoost.Reasm
import UdtBoost.Trace

/-! The receive buffer as a queue of bytes. A partial copy rewrites the header of the packet it
stops in, so only payload that lies after the header survives it. -/
namespace UdtBoost

namespace UdtPacket

variable {p q : UdtPacket} {j k : Nat}

/-- What a copy that stops `k` bytes into the payload leaves of the packet. -/
def after (p : UdtPacket) (k : Nat) : UdtPacket :=
  { p with hdr :=
    { p.hdr with
      off := p.hdr.off + BitVec.ofNat 16 k
      seq := p.hdr.seq + BitVec.ofNat 32 k
      len := p.hdr.len - BitVec.ofNat 16 k } }

/-- The payload lies after the header, inside the allocation, and ends below 2^16. -/
structure Sound (p : UdtPacket) : Prop where
  off : UdtHdr.size ≤ p.hdr.off.toNat
  inside : p.hdr.off.toNat + p.hdr.len.toNat ≤ UdtHdr.size + p.mem.length
  small : p.hdr.off.toNat + p.hdr.len.toNat < 2 ^ 16

instance (p : UdtPacket) : Decidable p.Sound :=
  decidable_of_iff (UdtHdr.size ≤ p.hdr.off.toNat ∧
      p.hdr.off.toNat + p.hdr.len.toNat ≤ UdtHdr.size + p.mem.length ∧
      p.hdr.off.toNat + p.hdr.len.toNat < 2 ^ 16)
    ⟨fun ⟨off, inside, small⟩ => ⟨off, inside, small⟩,
      fun ⟨off, inside, small⟩ => ⟨off, inside, small⟩⟩

@[simp] theorem after_zero (p : UdtPacket) : p.after 0 = p := by simp [after]

theorem after_after (p : UdtPacket) (j k : Nat) : (p.after j).after k = p.after (j + k) := by
  simp only [after, BitVec.ofNat_add, BitVec.add_assoc, UdtPacket.mk.injEq, UdtHdr.mk.injEq,
    and_self, and_true, true_and]
  bv_omega

theorem Sound.data_length (sound : p.Sound) : p.data.length = p.hdr.len.toNat :=
  UdtPacket.data_length (by have := sound.inside; omega)

theorem Sound.after_len (_ : p.Sound) (within : k ≤ p.hdr.len.toNat) :
    (p.after k).hdr.len.toNat + k = p.hdr.len.toNat := by
  change (p.hdr.len - BitVec.ofNat 16 k).toNat + k = _
  bv_omega

theorem Sound.after_off (sound : p.Sound) (within : k ≤ p.hdr.len.toNat) :
    (p.after k).hdr.off.toNat = p.hdr.off.toNat + k := by
  have small := sound.small
  change (p.hdr.off + BitVec.ofNat 16 k).toNat = _
  bv_omega

theorem Sound.after (sound : p.Sound) (within : k ≤ p.hdr.len.toNat) : (p.after k).Sound := by
  have len := sound.after_len within
  have off := sound.after_off within
  have before := sound.off
  have inside := sound.inside
  have small := sound.small
  exact ⟨by omega, by change _ ≤ _ + p.mem.length; omega, by omega⟩

/-- The bytes not read yet are still the ones the header describes. -/
theorem Sound.after_data (sound : p.Sound) (within : k ≤ p.hdr.len.toNat) :
    (p.after k).data = p.data.drop k := by
  have len := sound.after_len within
  have off := sound.after_off within
  have before := sound.off
  rw [data_of_le (sound.after within).off, data_of_le before, off, List.drop_take, List.drop_drop]
  change (List.drop _ p.mem).take _ = _
  congr 1
  · omega
  · congr 1
    omega

theorem after_endSeq (within : k ≤ p.hdr.len.toNat) : (p.after k).endSeq = p.endSeq := by
  change p.hdr.seq + BitVec.ofNat 32 k + (p.hdr.len - BitVec.ofNat 16 k).setWidth 32 =
    p.hdr.seq + p.hdr.len.setWidth 32
  bv_omega

end UdtPacket

/-- The payloads of a list of packets. -/
def payload (ps : List UdtPacket) : List UChar := ps.flatMap UdtPacket.data

@[simp] theorem payload_nil : payload [] = [] := rfl

@[simp] theorem payload_cons (p : UdtPacket) (ps : List UdtPacket) :
    payload (p :: ps) = p.data ++ payload ps := rfl

@[simp] theorem payload_append (ps qs : List UdtPacket) :
    payload (ps ++ qs) = payload ps ++ payload qs := List.flatMap_append

theorem payload_length {ps : List UdtPacket} (sound : ∀ p ∈ ps, p.Sound) :
    (payload ps).length = totalLen ps := by
  induction ps with
  | nil => rfl
  | cons p ps ih =>
      obtain ⟨here, later⟩ := List.forall_mem_cons.mp sound
      rw [payload_cons, List.length_append, totalLen_cons, here.data_length, ih later]

/-- The packets left when `k` bytes of the first one have been read. -/
def trimmed (k : Nat) : List UdtPacket → List UdtPacket
  | [] => []
  | p :: ps => p.after k :: ps

@[simp] theorem trimmed_zero (ps : List UdtPacket) : trimmed 0 ps = ps := by
  cases ps <;> simp [trimmed]

theorem trimmed_trimmed (j k : Nat) (ps : List UdtPacket) :
    trimmed k (trimmed j ps) = trimmed (j + k) ps := by
  cases ps with
  | nil => rfl
  | cons p ps => simp only [trimmed, UdtPacket.after_after]

/-- `left` is what reading `bytes` from the front of `ps` leaves. -/
def Leaves (ps : List UdtPacket) (bytes : List UChar) (left : List UdtPacket) : Prop :=
  ∃ gone kept k, ps = gone ++ kept ∧ left = trimmed k kept ∧
    (∀ p, kept.head? = some p → k ≤ p.hdr.len.toNat) ∧
    bytes = payload gone ++ (payload kept).take k

theorem Leaves.refl (ps : List UdtPacket) : Leaves ps [] ps :=
  ⟨[], ps, 0, rfl, (trimmed_zero ps).symm, fun _ _ => Nat.zero_le _, by simp⟩

theorem Leaves.cons {p : UdtPacket} {ps left : List UdtPacket} {bytes : List UChar}
    (leaves : Leaves ps bytes left) : Leaves (p :: ps) (p.data ++ bytes) left := by
  obtain ⟨gone, kept, k, split, left, within, bytes⟩ := leaves
  refine ⟨p :: gone, kept, k, by rw [split, List.cons_append], left, within, ?_⟩
  rw [bytes, payload_cons, List.append_assoc]

theorem Leaves.append {ps left : List UdtPacket} {bytes : List UChar} (leaves : Leaves ps bytes left)
    (sound : ∀ p ∈ ps, p.Sound) (more : List UdtPacket) :
    Leaves (ps ++ more) bytes (left ++ more) := by
  obtain ⟨gone, kept, k, rfl, rfl, within, rfl⟩ := leaves
  cases kept with
  | nil => exact ⟨gone, more, 0, by simp, (trimmed_zero more).symm, fun _ _ => Nat.zero_le _, by simp⟩
  | cons p kept =>
      have here := sound p (by simp)
      have size : k ≤ p.data.length := by
        rw [here.data_length]
        exact within p rfl
      refine ⟨gone, p :: (kept ++ more), k, by simp, rfl, within, ?_⟩
      rw [payload_cons, payload_cons, List.take_append_of_le_length size,
        List.take_append_of_le_length size]

theorem Leaves.sound {ps left : List UdtPacket} {bytes : List UChar} (leaves : Leaves ps bytes left)
    (sound : ∀ p ∈ ps, p.Sound) : ∀ p ∈ left, p.Sound := by
  obtain ⟨gone, kept, k, rfl, rfl, within, -⟩ := leaves
  cases kept with
  | nil => simp [trimmed]
  | cons p kept =>
      refine List.forall_mem_cons.mpr ⟨?_, fun q member => sound q (by simp [member])⟩
      exact (sound p (by simp)).after (within p rfl)

/-- What was read and what is left make up the payload. -/
theorem Leaves.payload_eq {ps left : List UdtPacket} {bytes : List UChar}
    (leaves : Leaves ps bytes left) (sound : ∀ p ∈ ps, p.Sound) :
    bytes ++ payload left = payload ps := by
  obtain ⟨gone, kept, k, rfl, rfl, within, rfl⟩ := leaves
  rw [payload_append, List.append_assoc]
  congr 1
  cases kept with
  | nil => simp [trimmed]
  | cons p kept =>
      have here := sound p (by simp)
      have short := within p rfl
      rw [trimmed, payload_cons, payload_cons, here.after_data short,
        List.take_append_of_le_length (by rw [here.data_length]; exact short),
        ← List.append_assoc, List.take_append_drop]

/-- Reading twice. -/
theorem Leaves.trans {ps mid left : List UdtPacket} {bytes more : List UChar}
    (sound : ∀ p ∈ ps, p.Sound) (first : Leaves ps bytes mid) (second : Leaves mid more left) :
    Leaves ps (bytes ++ more) left := by
  obtain ⟨gone, kept, j, rfl, rfl, within, rfl⟩ := first
  obtain ⟨gone', kept', k, split, rfl, within', rfl⟩ := second
  cases kept with
  | nil =>
      obtain ⟨rfl, rfl⟩ := List.append_eq_nil_iff.mp split.symm
      exact ⟨gone, [], k, rfl, rfl, by simp, by simp⟩
  | cons p kept =>
      have here := sound p (by simp)
      have short := within p rfl
      have size : j ≤ p.data.length := by rw [here.data_length]; exact short
      cases gone' with
      | nil =>
          -- the second read stops in the packet the first one stopped in
          obtain rfl : p.after j :: kept = kept' := split
          have short' : k ≤ (p.after j).hdr.len.toNat := within' _ rfl
          have len := here.after_len short
          refine ⟨gone, p :: kept, j + k, rfl, trimmed_trimmed j k (p :: kept), ?_, ?_⟩
          · rintro q same
            obtain rfl := Option.some.inj same
            omega
          · have size' : k ≤ (p.data.drop j).length := by
              rw [List.length_drop, here.data_length]
              omega
            rw [payload_cons, payload_cons, payload_nil, List.nil_append, here.after_data short,
              List.take_append_of_le_length size, List.take_append_of_le_length size',
              List.take_append_of_le_length (by rw [here.data_length]; omega), List.append_assoc,
              List.take_add]
      | cons q gone' =>
          obtain ⟨rfl, rfl⟩ := List.cons.inj split
          refine ⟨gone ++ p :: gone', kept', k, by simp, rfl, within', ?_⟩
          rw [payload_cons, payload_cons, payload_append, payload_cons, here.after_data short,
            List.take_append_of_le_length size]
          simp only [List.append_assoc]
          rw [← List.append_assoc (p.data.take j), List.take_append_drop]

namespace UdtBuf

variable {p : UdtPacket} {rest : List UdtPacket} {seq : Word} {n : Nat}

/-- The copy stops inside the packet. -/
theorem copyLoop_partly (partly : n < p.hdr.len.toNat) :
    copyLoop (p :: rest) seq n true = (p.data.take n, p.after n :: rest) := by
  have short : min p.hdr.len.toNat n = n := by omega
  rw [copyLoop]
  simp only [short, partly, if_true, Nat.sub_self, Nat.lt_irrefl, and_false, if_false]
  rfl

/-- The packet is read to its end and leaves the list. -/
theorem copyLoop_whole (whole : p.hdr.len.toNat ≤ n) :
    copyLoop (p :: rest) seq n true =
      if rest.head?.any (fun q => seq + p.hdr.len.setWidth 32 = q.hdr.seq) ∧
          0 < n - p.hdr.len.toNat then
        (p.data ++ (copyLoop rest (seq + p.hdr.len.setWidth 32) (n - p.hdr.len.toNat) true).1,
          (copyLoop rest (seq + p.hdr.len.setWidth 32) (n - p.hdr.len.toNat) true).2)
      else (p.data, rest) := by
  have size : min p.hdr.len.toNat n = p.hdr.len.toNat := by omega
  have all : p.data.take p.hdr.len.toNat = p.data := List.take_of_length_le (List.length_take_le _ _)
  have next : seq + BitVec.ofNat 32 p.hdr.len.toNat = seq + p.hdr.len.setWidth 32 := by bv_omega
  rw [copyLoop]
  simp only [size, Nat.not_lt.mpr whole, all, next, if_false, if_true, List.nil_append,
    Bool.true_and, decide_false, Bool.not_false]

/-- The loop of `copy` over packets that follow one another. -/
theorem copyLoop_leaves {ps : List UdtPacket} (sound : ∀ p ∈ ps, p.Sound)
    (follow : Contiguous seq ps) (some_ : 0 < n) :
    Leaves ps (copyLoop ps seq n true).1 (copyLoop ps seq n true).2 ∧
      (copyLoop ps seq n true).1.length = min n (totalLen ps) := by
  induction ps generalizing seq n with
  | nil => exact ⟨Leaves.refl [], (Nat.min_zero n).symm⟩
  | cons p rest ih =>
      obtain ⟨here, later⟩ := List.forall_mem_cons.mp sound
      have length := here.data_length
      rw [totalLen_cons]
      by_cases partly : n < p.hdr.len.toNat
      · rw [copyLoop_partly partly]
        refine ⟨⟨[], p :: rest, n, rfl, rfl, ?_, ?_⟩, ?_⟩
        · rintro q same
          obtain rfl := Option.some.inj same
          omega
        · rw [payload_cons, List.take_append_of_le_length (by omega)]
          rfl
        · rw [List.length_take, length]
          omega
      · rw [copyLoop_whole (Nat.le_of_not_lt partly)]
        split
        · next more =>
            obtain ⟨leaves, size⟩ := ih later follow.2 more.2
            refine ⟨leaves.cons, ?_⟩
            rw [List.length_append, size, length]
            omega
        · next stop =>
            refine ⟨?_, ?_⟩
            · have read : Leaves (p :: rest) (p.data ++ []) rest := (Leaves.refl rest).cons
              rwa [List.append_nil] at read
            · rw [length]
              cases rest with
              | nil => simpa using partly
              | cons q rest =>
                  -- the next packet follows, so the buffer of the user is full
                  have full : ¬ 0 < n - p.hdr.len.toNat := fun room =>
                    stop ⟨by simpa using follow.2.1.symm, room⟩
                  omega

theorem copy_cc (b : UdtBuf) (n : Nat) :
    (b.copy n true).2.cc = b.cc - BitVec.ofNat 32 (b.copy n true).1.length ∧
      (b.copy n true).2.hiwat = b.hiwat := by
  rw [copy]
  cases b.pkts with
  | nil => simp
  | cons p rest =>
      dsimp only
      split <;> simp

end UdtBuf

theorem Leaves.total_add {ps left : List UdtPacket} {bytes : List UChar}
    (leaves : Leaves ps bytes left) (sound : ∀ p ∈ ps, p.Sound) :
    bytes.length + totalLen left = totalLen ps := by
  rw [← payload_length (leaves.sound sound), ← payload_length sound, ← leaves.payload_eq sound,
    List.length_append]

theorem Leaves.contiguous {ps left : List UdtPacket} {bytes : List UChar} {seq : Word}
    (leaves : Leaves ps bytes left) (sound : ∀ p ∈ ps, p.Sound) (follow : Contiguous seq ps) :
    Contiguous (seq + BitVec.ofNat 32 bytes.length) left := by
  obtain ⟨gone, kept, k, rfl, rfl, within, rfl⟩ := leaves
  have size := payload_length fun p member => sound p (List.mem_append_left kept member)
  have behind := follow.of_append.2
  cases kept with
  | nil => trivial
  | cons p kept =>
      have here := sound p (by simp)
      have short := within p rfl
      rw [payload_cons, List.take_append_of_le_length (by rw [here.data_length]; exact short),
        List.length_append, size, List.length_take, here.data_length, Nat.min_eq_left short]
      refine ⟨?_, ?_⟩
      · change p.hdr.seq + BitVec.ofNat 32 k = _
        rw [behind.1, BitVec.ofNat_add, BitVec.add_assoc]
      · have ends := p.after_endSeq short
        change Contiguous _ kept
        rw [BitVec.ofNat_add, ← BitVec.add_assoc, ← behind.1]
        have same : p.hdr.seq + BitVec.ofNat 32 k + (p.after k).hdr.len.setWidth 32 = p.endSeq := ends
        rw [same]
        have rest := behind.2
        rwa [← behind.1] at rest

/-- The receive buffer with what went through it. -/
structure Reading where
  buf : UdtBuf
  appended : List UdtPacket
  returned : List UChar
  deriving DecidableEq

namespace Reading

/-- A call of the program: `append(udt_packet*)`, or `copy(buf, buf_len, true)`. -/
inductive Op where
  | append (p : UdtPacket)
  | copy (bufLen : Nat)

def step (r : Reading) : Op → Reading
  | .append p =>
      match r.buf.append p with
      | some b => { r with buf := b, appended := r.appended ++ [p] }
      | none => r
  | .copy n => { r with buf := (r.buf.copy n true).2, returned := r.returned ++ (r.buf.copy n true).1 }

/-- An empty buffer of any size. -/
def start (hiwat lowat seq : Word) : Reading := ⟨⟨0, hiwat, lowat, [], seq⟩, [], []⟩

/-- A packet that is taken follows the packets taken before, and its payload is sound. -/
def Feeds (first : Word) (r : Reading) : Op → Prop
  | .append p => (r.buf.append p).isSome →
      p.Sound ∧ p.hdr.seq = first + BitVec.ofNat 32 (totalLen r.appended)
  | .copy _ => True

instance (first : Word) (r : Reading) : ∀ op, Decidable (r.Feeds first op)
  | .append p => inferInstanceAs (Decidable (_ → p.Sound ∧ _))
  | .copy _ => inferInstanceAs (Decidable True)

/-- What the bytes in the buffer have to do with the bytes that went in. -/
structure Queue (r : Reading) : Prop where
  bytes : r.returned ++ payload r.buf.pkts = payload r.appended
  cc : r.buf.cc.toNat = totalLen r.buf.pkts
  copies : ∀ n, (r.buf.copy n true).1.length = min n (payload r.buf.pkts).length
  unread : ∀ p rest, r.buf.pkts = p :: rest → ∃ gone q k, r.appended = gone ++ q :: rest ∧
    r.returned = payload gone ++ q.data.take k ∧ p.data = q.data.drop k ∧ p.mem = q.mem ∧
    p.hdr.seq = q.hdr.seq + BitVec.ofNat 32 k ∧ p.hdr.off.toNat = q.hdr.off.toNat + k ∧
    p.hdr.len.toNat + k = q.hdr.len.toNat

/-- The invariant behind it. -/
structure Kept (first : Word) (r : Reading) : Prop where
  sound : ∀ p ∈ r.appended, p.Sound
  follow : Contiguous first r.appended
  leaves : Leaves r.appended r.returned r.buf.pkts
  cc : r.buf.cc.toNat = totalLen r.buf.pkts
  room : r.buf.cc.toNat ≤ r.buf.hiwat.toNat

variable {first : Word} {r : Reading}

theorem Kept.copy_leaves (kept : r.Kept first) (n : Nat) :
    Leaves r.buf.pkts (r.buf.copy n true).1 (r.buf.copy n true).2.pkts ∧
      (r.buf.copy n true).1.length = min n (totalLen r.buf.pkts) := by
  have sound := kept.leaves.sound kept.sound
  have follow := kept.leaves.contiguous kept.sound kept.follow
  cases queue : r.buf.pkts with
  | nil =>
      rw [UdtBuf.copy, queue]
      exact ⟨by rw [queue]; exact Leaves.refl [], by simp⟩
  | cons p rest =>
      rw [queue] at sound follow
      by_cases none : n = 0
      · rw [UdtBuf.copy, queue]
        simp only [none, if_true, queue]
        exact ⟨Leaves.refl _, by simp⟩
      · rw [UdtBuf.copy, queue]
        simp only [none, if_false]
        have head : p.hdr.seq = first + BitVec.ofNat 32 r.returned.length := follow.1
        rw [head]
        exact UdtBuf.copyLoop_leaves sound follow (by omega)

theorem Kept.start (hiwat lowat seq : Word) : (start hiwat lowat seq).Kept first where
  sound := by simp [Reading.start]
  follow := trivial
  leaves := Leaves.refl []
  cc := rfl
  room := Nat.zero_le _

theorem Kept.step (kept : r.Kept first) (op : Op) (feeds : r.Feeds first op) :
    (r.step op).Kept first := by
  cases op with
  | append p =>
      have cc := kept.cc
      have room := kept.room
      simp only [Reading.step, Feeds, UdtBuf.append] at feeds ⊢
      split at feeds
      case isTrue full =>
        rw [if_pos full]
        exact kept
      case isFalse fits =>
        obtain ⟨sound, follows⟩ := feeds rfl
        rw [if_neg fits]
        have space : r.buf.cc.toNat + p.hdr.len.toNat ≤ r.buf.hiwat.toNat := by
          unfold UdtBuf.acc at fits
          bv_omega
        have grown : (r.buf.cc + p.hdr.len.setWidth 32).toNat = r.buf.cc.toNat + p.hdr.len.toNat := by
          bv_omega
        refine ⟨?_, ?_, ?_, ?_, ?_⟩
        · exact List.forall_mem_append.mpr ⟨kept.sound, List.forall_mem_singleton.mpr sound⟩
        · exact kept.follow.append ⟨follows, trivial⟩
        · exact kept.leaves.append kept.sound [p]
        · change (r.buf.cc + _).toNat = totalLen (r.buf.pkts ++ [p])
          rw [grown, cc, totalLen_append]
          rfl
        · change (r.buf.cc + _).toNat ≤ r.buf.hiwat.toNat
          omega
  | copy n =>
      obtain ⟨leaves, _⟩ := kept.copy_leaves n
      obtain ⟨less, same⟩ := r.buf.copy_cc n
      have total := leaves.total_add (kept.leaves.sound kept.sound)
      have cc := kept.cc
      have room := kept.room
      have small := r.buf.cc.isLt
      have left : (r.buf.copy n true).2.cc.toNat = totalLen (r.buf.copy n true).2.pkts := by
        rw [less]
        bv_omega
      refine ⟨kept.sound, kept.follow, kept.leaves.trans kept.sound leaves, left, ?_⟩
      change (r.buf.copy n true).2.cc.toNat ≤ (r.buf.copy n true).2.hiwat.toNat
      rw [same]
      omega

theorem Kept.queue (kept : r.Kept first) : r.Queue where
  bytes := kept.leaves.payload_eq kept.sound
  cc := kept.cc
  copies n := by
    rw [payload_length (kept.leaves.sound kept.sound)]
    exact (kept.copy_leaves n).2
  unread := by
    intro p rest front
    obtain ⟨gone, left, k, split, trim, within, read⟩ := kept.leaves
    cases left with
    | nil =>
        rw [trim] at front
        contradiction
    | cons q left =>
        rw [trim] at front
        obtain ⟨rfl, rfl⟩ := List.cons.inj front
        have sound := kept.sound q (by simp [split])
        have short := within q rfl
        refine ⟨gone, q, k, split, ?_, sound.after_data short, rfl, rfl, sound.after_off short,
          sound.after_len short⟩
        rw [read, payload_cons,
          List.take_append_of_le_length (by rw [sound.data_length]; exact short)]

/-- Packets that follow one another, with their payload after the header, go through the receive
buffer as a queue of bytes, however they are read. -/
theorem receive_buffer_byte_queue (hiwat lowat seq first : Word) (ops : List Op)
    (fed : Trace.Meets step (Feeds first) (start hiwat lowat seq) ops) :
    (ops.foldl step (start hiwat lowat seq)).Queue :=
  (fed.invariant (Kept.start hiwat lowat seq) fun _ op kept feeds => kept.step op feeds).queue

/-- Two packets, the first read in two pieces. -/
theorem receive_buffer_byte_queue_pieces :
    let p : UdtPacket := ⟨⟨0, UdtHdr.TH_ACK, 0, 3, 20, 7, 0, 0⟩, [1, 2, 3], 1⟩
    let q : UdtPacket := ⟨⟨0, UdtHdr.TH_ACK, 0, 2, 20, 10, 0, 0⟩, [4, 5], 2⟩
    ([.append p, .copy 2, .append q, .copy 9].foldl step (start 100 1 0)).Queue :=
  receive_buffer_byte_queue 100 1 0 7 _ (by decide +kernel)

/-- A payload that starts in the header: reading its first byte rewrites the bytes behind it. -/
theorem header_payload_rewritten :
    let p : UdtPacket := ⟨⟨0, UdtHdr.TH_ACK, 0, 25, 0, 7, 0, 0⟩, [1, 2, 3, 4, 5], 1⟩
    let r := [.append p, .copy 1].foldl step (start 100 1 0)
    p.hdr.off.toNat + p.hdr.len.toNat = 25 ∧ r.appended = [p] ∧
      r.returned ++ payload r.buf.pkts ≠ payload r.appended := by
  decide +kernel

end Reading

end UdtBoost
