import UdtBoost.Extents
import UdtBoost.Outcome

/-! The packets of `snd_buf` as extents of the send sequence, by their distance from a base. -/
namespace UdtBoost

namespace UdtPacket

/-- How far after `base` the payload starts. -/
def place (base : Word) (q : UdtPacket) : Nat := (q.hdr.seq - base).toNat

def span (q : UdtPacket) : Nat := q.hdr.len.toNat

@[simp] theorem place_unflagged (base : Word) (q : UdtPacket) : q.unflagged.place base = q.place base :=
  rfl

@[simp] theorem span_unflagged (q : UdtPacket) : q.unflagged.span = q.span := rfl

end UdtPacket

/-- Distances add up below the size of the circle. -/
theorem toNat_add_sub {a base : Word} {n : Nat} (room : (a - base).toNat + n < 2 ^ 32) :
    (a + BitVec.ofNat 32 n - base).toNat = (a - base).toNat + n := by
  bv_omega

theorem toNat_add_sub' {a l base : Word} (room : (a - base).toNat + l.toNat < 2 ^ 32) :
    (a + l - base).toNat = (a - base).toNat + l.toNat := by
  bv_omega

/-- Distances from a base further on. -/
theorem toNat_rebase {a b base : Word} (ahead : (b - base).toNat ≤ (a - base).toNat) :
    (a - b).toNat + (b - base).toNat = (a - base).toNat := by
  bv_omega

/-- The packets lie one after the other between two distances from `base`. -/
abbrev Queued (base : Word) : Nat → Nat → List UdtPacket → Prop :=
  Extents.Laid (UdtPacket.place base) UdtPacket.span

abbrev Packed (base : Word) : Nat → Nat → List UdtPacket → Prop :=
  Extents.Tiled (UdtPacket.place base) UdtPacket.span

theorem hasRexmt_zero : hasRexmt 0 = false := by decide

theorem hasRexmt_marked : ∀ flags : UChar, hasRexmt (flags ||| UdtHdr.TH_RETRANS) = true := by decide

/-- Bytes marked as sent again. -/
def flaggedLen (ps : List UdtPacket) : Nat := totalLen (ps.filter fun q => hasRexmt q.hdr.flags)

@[simp] theorem flaggedLen_nil : flaggedLen [] = 0 := rfl

theorem flaggedLen_cons (p : UdtPacket) (ps : List UdtPacket) :
    flaggedLen (p :: ps) = (if hasRexmt p.hdr.flags then p.hdr.len.toNat else 0) + flaggedLen ps := by
  unfold flaggedLen
  rw [List.filter_cons]
  split <;> simp

@[simp] theorem flaggedLen_append (ps qs : List UdtPacket) :
    flaggedLen (ps ++ qs) = flaggedLen ps + flaggedLen qs := by
  simp [flaggedLen]

theorem flaggedLen_of_plain {ps : List UdtPacket} (plain : ∀ q ∈ ps, hasRexmt q.hdr.flags = false) :
    flaggedLen ps = 0 := by
  unfold flaggedLen
  rw [List.filter_eq_nil_iff.mpr fun q member => by simp [plain q member]]
  rfl

theorem flaggedLen_le (ps : List UdtPacket) : flaggedLen ps ≤ totalLen ps :=
  (List.filter_sublist.map _).sum_le_sum fun _ _ => Nat.zero_le _

/-- A packet kept, marked or not, keeps its place. -/
theorem queued_unflagged_iff {base : Word} {lo hi : Nat} {ps : List UdtPacket} :
    Queued base lo hi (ps.map UdtPacket.unflagged) ↔ Queued base lo hi ps :=
  Extents.laid_map_iff

theorem queued_congr {base : Word} {lo hi : Nat} {ps qs : List UdtPacket}
    (same : ps.map UdtPacket.unflagged = qs.map UdtPacket.unflagged) :
    Queued base lo hi ps ↔ Queued base lo hi qs := by
  rw [← queued_unflagged_iff, same, queued_unflagged_iff]

theorem totalLen_congr {ps qs : List UdtPacket}
    (same : ps.map UdtPacket.unflagged = qs.map UdtPacket.unflagged) : totalLen ps = totalLen qs := by
  rw [← Endpoint.totalLen_unflagged, same, Endpoint.totalLen_unflagged]

/-- Packets that leave one after the other take their marked bytes with them. -/
theorem foldl_retransLeft {data : Word} {gone rest : List UdtPacket}
    (total : data.toNat = flaggedLen (gone ++ rest)) :
    (gone.foldl Endpoint.retransLeft data).toNat = flaggedLen rest := by
  induction gone generalizing data with
  | nil => exact total
  | cons q gone ih =>
      refine ih ?_
      rw [List.cons_append, flaggedLen_cons] at total
      have small := data.isLt
      unfold Endpoint.retransLeft
      split at total
      · next up =>
          rw [if_pos up]
          bv_omega
      · next up =>
          rw [if_neg up, total, Nat.zero_add]

namespace UdtBuf

variable {b b' : UdtBuf} {base : Word} {segSize : Nat}

theorem segment_packed (large : 0 < segSize) (small : segSize < 2 ^ 16) (fuel : Nat) (seq : Word)
    (data : List UChar) (enough : data.length ≤ fuel)
    (room : (seq - base).toNat + data.length < 2 ^ 32) :
    Packed base (seq - base).toNat ((seq - base).toNat + data.length)
      (segment segSize fuel seq data) := by
  induction fuel generalizing seq data with
  | zero =>
      have none : data.length = 0 := by omega
      rw [segment, none]
      rfl
  | succ fuel ih =>
      rw [segment]
      split
      · next empty =>
          rw [empty]
          rfl
      · next some_ =>
          have long : 0 < data.length := List.length_pos_iff.mpr some_
          have size : (alloc seq (data.take segSize)).span = min data.length segSize := by
            change (BitVec.ofNat 16 (data.take segSize).length).toNat = _
            rw [List.length_take, BitVec.toNat_ofNat]
            omega
          refine ⟨rfl, by omega, ?_⟩
          rw [size]
          have next : (seq + BitVec.ofNat 32 (min data.length segSize) - base).toNat =
              (seq - base).toNat + min data.length segSize := toNat_add_sub (by omega)
          have rest := ih (seq + BitVec.ofNat 32 (min data.length segSize)) (data.drop segSize)
          rw [next, List.length_drop] at rest
          have length : (seq - base).toNat + data.length =
              (seq - base).toNat + min data.length segSize + (data.length - segSize) := by omega
          rw [length]
          exact rest (by omega) (by omega)

theorem segment_plain (fuel : Nat) (seq : Word) (data : List UChar) :
    ∀ q ∈ segment segSize fuel seq data, hasRexmt q.hdr.flags = false := by
  induction fuel generalizing seq data with
  | zero => simp [segment]
  | succ fuel ih =>
      rw [segment]
      split
      · simp
      · exact List.forall_mem_cons.mpr ⟨hasRexmt_zero, ih _ _⟩

/-- What appending `n` bytes of user data makes of the buffer. -/
structure Grown (base : Word) (b b' : UdtBuf) (n : Nat) : Prop where
  seq : b'.seq = b.seq + BitVec.ofNat 32 n
  cc : b'.cc = b.cc + BitVec.ofNat 32 n
  new : ∃ new, b'.pkts = b.pkts ++ new ∧ (∀ q ∈ new, hasRexmt q.hdr.flags = false) ∧
    ((b.seq - base).toNat + n < 2 ^ 32 →
      Packed base (b.seq - base).toNat ((b.seq - base).toNat + n) new)

theorem appendData_grown {data : Option (List UChar)} (small : segSize < 2 ^ 16)
    (appended : b.appendData data segSize = some b') :
    Grown base b b' (data.getD []).length ∧ 0 < (data.getD []).length := by
  unfold appendData at appended
  cases data with
  | none => contradiction
  | some bytes =>
      dsimp only at appended
      split at appended
      case isTrue => contradiction
      case isFalse fits =>
        obtain rfl := Option.some.inj appended
        rw [not_or, not_or] at fits
        refine ⟨⟨rfl, rfl, _, rfl, segment_plain _ _ _, fun room => ?_⟩,
          List.length_pos_iff.mpr fits.2.1⟩
        exact segment_packed (Nat.pos_of_ne_zero fits.2.2) small _ _ _ (Nat.le_refl _) room

theorem Grown.refl (base : Word) (b : UdtBuf) : Grown base b b 0 where
  seq := by simp
  cc := by simp
  new := ⟨[], by simp, by simp, fun _ => rfl⟩

theorem Grown.trans {b'' : UdtBuf} {m n : Nat} (first : Grown base b b' m)
    (second : Grown base b' b'' n) : Grown base b b'' (m + n) where
  seq := by rw [second.seq, first.seq, BitVec.add_assoc, BitVec.ofNat_add]
  cc := by rw [second.cc, first.cc, BitVec.add_assoc, BitVec.ofNat_add]
  new := by
    obtain ⟨ps, front, plain, packed⟩ := first.new
    obtain ⟨qs, back, plain', packed'⟩ := second.new
    refine ⟨ps ++ qs, by rw [back, front, List.append_assoc],
      List.forall_mem_append.mpr ⟨plain, plain'⟩, fun room => ?_⟩
    have next : (b'.seq - base).toNat = (b.seq - base).toNat + m := by
      rw [first.seq]
      bv_omega
    rw [next] at packed'
    have later := packed' (by omega)
    rw [Nat.add_assoc] at later
    exact (packed (by omega)).append later

/-- Bytes of queued send operations. -/
def opsLen (ops : List SendOperation) : Nat := (ops.map (·.buf.size)).sum

theorem appendOps_grown {ops : List SendOperation} (small : segSize < 2 ^ 16)
    (appended : b.appendOps segSize ops = some b') : Grown base b b' (opsLen ops) := by
  induction ops generalizing b with
  | nil =>
      obtain rfl := Option.some.inj appended
      exact .refl base b
  | cons op ops ih =>
      rw [appendOps, Option.bind_eq_some_iff] at appended
      obtain ⟨c, first, rest⟩ := appended
      have grown : Grown base b c _ := (appendData_grown small first).1
      exact grown.trans (ih rest)

end UdtBuf

end UdtBoost
