import UdtBoost.Buf
import UdtBoost.ByteQueue

/-! The limit of a buffer. `acc` is an unsigned difference, so it guards an append only while no
more is stored than the limit allows, and `setsockopt` does not look. -/
namespace UdtBoost

namespace UdtBuf

/-- What happens to one buffer of a socket. -/
inductive Op where
  | setHiwat (v : Word)
  | appendData (data : Option (List UChar)) (segSize : Nat)
  | append (p : UdtPacket)
  | read (bufLen : Nat)
  | drop (i : Nat)

/-- The packet at `i` is dropped, if there is one. -/
def dropAt (b : UdtBuf) (i : Nat) : UdtBuf :=
  match b.pkts[i]? with
  | some p => b.drop (b.pkts.take i) p (b.pkts.drop (i + 1))
  | none => b

/-- A refused append leaves the buffer as it was. -/
def step (b : UdtBuf) : Op → UdtBuf
  | .setHiwat v => b.setHiwat v
  | .appendData data segSize => (b.appendData data segSize).getD b
  | .append p => (b.append p).getD b
  | .read n => (b.copy n true).2
  | .drop i => b.dropAt i

/-- An append of `n` bytes that was not refused stayed inside the limit. -/
def Within (b : UdtBuf) (n : Nat) : Option UdtBuf → Prop
  | some b' => b.cc.toNat + n ≤ b.hiwat.toNat ∧ b'.cc ≤ b'.hiwat
  | none => True

/-- Every append respects the limit in force. -/
def Respects (b : UdtBuf) : Op → Prop
  | .appendData data segSize => b.Within (data.getD []).length (b.appendData data segSize)
  | .append p => b.Within p.hdr.len.toNat (b.append p)
  | _ => True

/-- No more is stored than the limit allows, or the guard refuses the append all the same. -/
def Guarded (b : UdtBuf) : Op → Prop
  | .appendData data segSize => b.cc ≤ b.hiwat ∨ b.acc.toNat < (data.getD []).length ∨
      data.getD [] = [] ∨ segSize = 0
  | .append p => b.cc ≤ b.hiwat ∨ b.acc.toNat < p.hdr.len.toNat
  | _ => True

/-- The limit is not lowered below what is stored. -/
def Raised (b : UdtBuf) : Op → Prop
  | .setHiwat v => b.cc ≤ v
  | _ => True

instance (b : UdtBuf) : ∀ op, Decidable (b.Raised op)
  | .setHiwat v => inferInstanceAs (Decidable (b.cc ≤ v))
  | .appendData .. | .append _ | .read _ | .drop _ => inferInstanceAs (Decidable True)

variable {b : UdtBuf}

/-- Beyond the limit the guard is a whole circle too large. -/
theorem fits_iff {n : Nat} (small : n ≤ b.acc.toNat) :
    b.cc.toNat + n ≤ b.hiwat.toNat ↔ b.cc ≤ b.hiwat := by
  rw [BitVec.le_def]
  unfold acc at small
  constructor
  · intro fits
    omega
  · intro below
    bv_omega

theorem cc_le_of_fits {n : Nat} (fits : b.cc.toNat + n ≤ b.hiwat.toNat) :
    b.cc + BitVec.ofNat 32 n ≤ b.hiwat := by
  rw [BitVec.le_def]
  have small := b.hiwat.isLt
  bv_omega

theorem respects_append_iff (p : UdtPacket) :
    b.Respects (.append p) ↔ b.Guarded (.append p) := by
  simp only [Respects, Guarded, append]
  split
  · next full => simp [Within, full]
  · next room =>
      have fits := fits_iff (b := b) (Nat.le_of_not_lt room)
      rw [Within, or_iff_left room, ← fits]
      constructor
      · exact And.left
      · intro inside
        refine ⟨inside, ?_⟩
        have below := cc_le_of_fits inside
        rwa [BitVec.ofNat_toNat] at below

theorem respects_appendData_iff (data : Option (List UChar)) (segSize : Nat) :
    b.Respects (.appendData data segSize) ↔ b.Guarded (.appendData data segSize) := by
  cases data with
  | none => simp [Respects, Guarded, appendData, Within]
  | some bytes =>
      simp only [Respects, Guarded, appendData, Option.getD_some]
      split
      · next refused => simp [Within, refused]
      · next taken =>
          have room := Nat.le_of_not_lt fun full => taken (.inl full)
          rw [Within, or_iff_left taken, ← fits_iff room]
          constructor
          · exact And.left
          · exact fun inside => ⟨inside, cc_le_of_fits inside⟩

theorem respects_iff (op : Op) : b.Respects op ↔ b.Guarded op := by
  cases op with
  | setHiwat _ | read _ | drop _ => exact Iff.rfl
  | appendData data segSize => exact respects_appendData_iff data segSize
  | append p => exact respects_append_iff p

/-- Reading takes no more bytes off `m_cc` than the packets lose. -/
theorem copyLoop_total (ps : List UdtPacket) (seq : Word) (n : Nat) :
    (copyLoop ps seq n true).1.length + totalLen (copyLoop ps seq n true).2 ≤ totalLen ps := by
  induction ps generalizing seq n with
  | nil => simp [copyLoop]
  | cons p rest ih =>
      have bytes : p.data.length ≤ p.hdr.len.toNat := List.length_take_le _ _
      rw [totalLen_cons]
      by_cases partly : n < p.hdr.len.toNat
      · have left : (p.after n).hdr.len.toNat = p.hdr.len.toNat - n := by
          change (p.hdr.len - BitVec.ofNat 16 n).toNat = _
          bv_omega
        have taken : (p.data.take n).length ≤ n := List.length_take_le _ _
        rw [copyLoop_partly partly]
        dsimp only
        rw [totalLen_cons, left]
        omega
      · rw [copyLoop_whole (Nat.le_of_not_lt partly)]
        have later := ih (seq + p.hdr.len.setWidth 32) (n - p.hdr.len.toNat)
        split
        · dsimp only
          rw [List.length_append]
          omega
        · exact Nat.add_le_add_right bytes _

/-- The packets account for no more than `m_cc`, and `m_cc` is inside the limit. -/
structure Bounded (b : UdtBuf) : Prop where
  total : totalLen b.pkts ≤ b.cc.toNat
  limit : b.cc ≤ b.hiwat

theorem Bounded.taken {n : Nat} {new : List UdtPacket} {seq : Word} (bounded : b.Bounded)
    (room : n ≤ b.acc.toNat) (total : totalLen new ≤ n) :
    ({ b with cc := b.cc + BitVec.ofNat 32 n, pkts := b.pkts ++ new, seq } : UdtBuf).Bounded := by
  have inside := (fits_iff room).mpr bounded.limit
  have stored := bounded.total
  have small := b.hiwat.isLt
  refine ⟨?_, cc_le_of_fits inside⟩
  change totalLen (b.pkts ++ new) ≤ (b.cc + BitVec.ofNat 32 n).toNat
  rw [totalLen_append]
  bv_omega

theorem Bounded.given {n : Nat} {left : List UdtPacket} (bounded : b.Bounded)
    (total : n + totalLen left ≤ totalLen b.pkts) :
    ({ b with cc := b.cc - BitVec.ofNat 32 n, pkts := left } : UdtBuf).Bounded := by
  have stored := bounded.total
  have limit := bounded.limit
  rw [BitVec.le_def] at limit
  have small := b.hiwat.isLt
  refine ⟨?_, ?_⟩
  · change totalLen left ≤ (b.cc - BitVec.ofNat 32 n).toNat
    bv_omega
  · change b.cc - BitVec.ofNat 32 n ≤ b.hiwat
    rw [BitVec.le_def]
    bv_omega

theorem segment_total (segSize : Nat) (fuel : Nat) (seq : Word) (data : List UChar) :
    totalLen (segment segSize fuel seq data) ≤ data.length := by
  induction fuel generalizing seq data with
  | zero => exact Nat.zero_le _
  | succ fuel ih =>
      rw [segment]
      split
      · exact Nat.zero_le _
      · have rest := ih (seq + BitVec.ofNat 32 (min data.length segSize)) (data.drop segSize)
        have here : (alloc seq (data.take segSize)).hdr.len.toNat ≤ (data.take segSize).length :=
          (BitVec.toNat_ofNat _ _).trans_le (Nat.mod_le _ _)
        rw [List.length_take] at here
        rw [List.length_drop] at rest
        rw [totalLen_cons]
        omega

theorem Bounded.step (bounded : b.Bounded) (op : Op) (raised : b.Raised op) :
    (b.step op).Bounded := by
  cases op with
  | setHiwat v => exact ⟨bounded.total, raised⟩
  | appendData data segSize =>
      simp only [UdtBuf.step, appendData]
      cases data with
      | none => exact bounded
      | some bytes =>
          dsimp only
          split
          · exact bounded
          · next taken =>
              exact bounded.taken (Nat.le_of_not_lt fun full => taken (.inl full))
                (segment_total _ _ _ _)
  | append p =>
      simp only [UdtBuf.step, append]
      split
      · exact bounded
      · next room =>
          have alone : totalLen [p] ≤ p.hdr.len.toNat := by simp
          have kept : ({ b with
              cc := b.cc + BitVec.ofNat 32 p.hdr.len.toNat
              pkts := b.pkts ++ [p] } : UdtBuf).Bounded :=
            bounded.taken (Nat.le_of_not_lt room) alone
          rwa [BitVec.ofNat_toNat] at kept
  | read n =>
      simp only [UdtBuf.step, copy]
      cases queue : b.pkts with
      | nil => exact bounded
      | cons p rest =>
          dsimp only
          split
          · exact bounded
          · refine bounded.given ?_
            rw [queue]
            exact copyLoop_total (p :: rest) p.hdr.seq n
  | drop i =>
      simp only [UdtBuf.step, dropAt]
      split
      · next p here =>
          have split : b.pkts = b.pkts.take i ++ p :: b.pkts.drop (i + 1) := by
            obtain ⟨inside, rfl⟩ := List.getElem?_eq_some_iff.mp here
            rw [List.cons_getElem_drop_succ, List.take_append_drop]
          have total : p.hdr.len.toNat + totalLen (b.pkts.take i ++ b.pkts.drop (i + 1)) ≤
              totalLen b.pkts := by
            conv_rhs => rw [split]
            simp only [totalLen_append, totalLen_cons]
            omega
          have kept := bounded.given total
          rwa [BitVec.ofNat_toNat] at kept
      · exact bounded

/-- An append respects the limit exactly when no more than the limit is stored, or the guard
refuses it anyway; so it always does when no limit is set below what is stored. -/
theorem buffer_capacity_respected_iff (seq : Word) (ops : List Op) :
    (Trace.Meets step Respects (init seq) ops ↔ Trace.Meets step Guarded (init seq) ops) ∧
      (Trace.Meets step Raised (init seq) ops → Trace.Meets step Respects (init seq) ops) := by
  refine ⟨Trace.meets_congr fun _ op => respects_iff op, fun raised => ?_⟩
  have fresh : (init seq).Bounded := ⟨Nat.zero_le _, (by decide : (0 : Word) ≤ DEFAULT_BUFFER_SIZE)⟩
  refine raised.imp fresh (fun _ op bounded => bounded.step op) ?_
  intro b op bounded _
  rw [respects_iff]
  cases op with
  | setHiwat _ | read _ | drop _ => trivial
  | appendData _ _ | append _ => exact .inl bounded.limit

/-- The limit is lowered while the buffer is empty. -/
theorem buffer_capacity_respected_shrunk :
    Trace.Meets step Respects (init 0)
      [.setHiwat 3, .appendData (some [1, 2]) 950, .append ⟨⟨0, 0, 0, 2, 20, 0, 0, 0⟩, [1, 2], 0⟩] :=
  (buffer_capacity_respected_iff 0 _).2 (by decide +kernel)

/-- Two bytes are stored, the limit is lowered to one, and two more bytes are taken. -/
theorem lowered_limit_exceeded :
    let b := [.appendData (some [1, 2]) 950, .setHiwat 1].foldl step (init 0)
    b.cc = 2 ∧ b.hiwat = 1 ∧ (b.appendData (some [3, 4]) 950).map (·.cc) = some 4 ∧
      ¬ b.Respects (.appendData (some [3, 4]) 950) := by
  refine ⟨by decide +kernel, by decide +kernel, by decide +kernel, ?_⟩
  rintro ⟨inside, _⟩
  revert inside
  decide +kernel

end UdtBuf

end UdtBoost
