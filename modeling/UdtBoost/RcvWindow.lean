import UdtBoost.Reasm

/-! The receive window test. Both of its differences are read as signed words, so a segment that
starts about half a circle ahead passes for one inside the window. -/
namespace UdtBoost

namespace Conn

variable {c : Conn} {ti : UdtHdr}

/-- How far after `m_rcv_nxt` a segment starts. -/
def ahead (c : Conn) (ti : UdtHdr) : Nat := (ti.seq - c.cb.rcvNxt).toNat

/-- The segment starts at most half a circle ahead and ends half a circle after the window. -/
def HalfCircle (c : Conn) (ti : UdtHdr) : Prop :=
  c.ahead ti ≤ 2 ^ 31 ∧ c.cb.rcvWnd.toNat + 2 ^ 31 ≤ c.ahead ti + ti.len.toNat

instance (c : Conn) (ti : UdtHdr) : Decidable (c.HalfCircle ti) :=
  inferInstanceAs (Decidable (_ ∧ _))

/-- The first test refuses what starts in the half of the circle before `m_rcv_nxt`. -/
theorem seqGt_rcvNxt_iff : seqGt c.cb.rcvNxt ti.seq ↔ 2 ^ 31 < c.ahead ti := by
  rw [seqGt_iff, ahead]
  bv_omega

/-- The second refuses what ends less than half a circle after the window. -/
theorem seqGt_window_iff (near : c.ahead ti ≤ 2 ^ 31) (half : c.cb.rcvWnd.toNat < 2 ^ 31) :
    seqGt (ti.seq + ti.len.setWidth 32) (c.cb.rcvNxt + c.cb.rcvWnd) ↔
      c.cb.rcvWnd.toNat < c.ahead ti + ti.len.toNat ∧
        c.ahead ti + ti.len.toNat < c.cb.rcvWnd.toNat + 2 ^ 31 := by
  have len := ti.len.isLt
  rw [seqGt_iff]
  unfold ahead at *
  bv_omega

/-- What passes both tests lies in the window, or ends half a circle after it. -/
theorem outOfRcvWnd_eq_false_iff (noSyn : hasSyn ti.flags = false)
    (half : c.cb.rcvWnd.toNat < 2 ^ 31) :
    c.outOfRcvWnd ti = false ↔
      c.ahead ti + ti.len.toNat ≤ c.cb.rcvWnd.toNat ∨ c.HalfCircle ti := by
  have syn : synLen ti.flags = 0 := by
    rw [synLen, noSyn]
    rfl
  have first : seqGt c.cb.rcvNxt (ti.seq + 0) ↔ 2 ^ 31 < c.ahead ti := by
    simpa using seqGt_rcvNxt_iff
  rw [← Bool.not_eq_true, outOfRcvWnd_iff, syn, first, HalfCircle]
  by_cases near : c.ahead ti ≤ 2 ^ 31
  · rw [seqGt_window_iff near half]
    omega
  · omega

end Conn

namespace Endpoint

variable {s : Endpoint} {p : UdtPacket}

/-- `drop_out_of_rcv_wnd_packet` keeps exactly the segments inside the window, but for those that
start at most half a circle ahead and end half a circle after it. -/
theorem window_test_exact_iff (noSyn : hasSyn p.hdr.flags = false)
    (half : (s.dropOutOfRcvWndPacket p).2.cb.rcvWnd.toNat < 2 ^ 31) :
    ((s.dropOutOfRcvWndPacket p).1 = false ↔
        (p.hdr.seq - s.cb.rcvNxt).toNat + p.hdr.len.toNat ≤
          (s.dropOutOfRcvWndPacket p).2.cb.rcvWnd.toNat) ↔
      ¬ ((p.hdr.seq - s.cb.rcvNxt).toNat ≤ 2 ^ 31 ∧
        (s.dropOutOfRcvWndPacket p).2.cb.rcvWnd.toNat + 2 ^ 31 ≤
          (p.hdr.seq - s.cb.rcvNxt).toNat + p.hdr.len.toNat) := by
  have wnd : (s.dropOutOfRcvWndPacket p).2.cb.rcvWnd = s.withRcvWnd.cb.rcvWnd := by
    rw [dropOutOfRcvWndPacket_eq]
    split <;> rfl
  have kept : (s.dropOutOfRcvWndPacket p).1 = s.withRcvWnd.outOfRcvWnd p.hdr := by
    rw [dropOutOfRcvWndPacket_eq]
    split
    · next out => exact out.symm
    · next inside => exact (Bool.eq_false_iff.mpr inside).symm
  rw [wnd] at half ⊢
  rw [kept, Conn.outOfRcvWnd_eq_false_iff noSyn half]
  change (_ ∨ s.withRcvWnd.HalfCircle p.hdr ↔ s.withRcvWnd.ahead p.hdr + _ ≤ _) ↔
    ¬ s.withRcvWnd.HalfCircle p.hdr
  unfold Conn.HalfCircle
  omega

/-- An active open whose peer's first number is 100. -/
def openedAt100 : Endpoint :=
  (init 0 0 0 Env.zero).run
    [.connect 0, .datagram (UdtHdr.mk 0 (UdtHdr.TH_SYN ||| UdtHdr.TH_ACK) 4000 0 20 100 1 0) []]

/-- A segment of the given length and start. -/
def segmentAt (seq : Word) (len : Half) : UdtPacket :=
  ⟨⟨0, UdtHdr.TH_ACK, 4000, len, 20, seq, 1, 0⟩, [], 2⟩

theorem window_test_exact_next :
    ((openedAt100.dropOutOfRcvWndPacket (segmentAt 101 950)).1 = false ↔
        ((101 : Word) - openedAt100.cb.rcvNxt).toNat + (950 : Half).toNat ≤
          (openedAt100.dropOutOfRcvWndPacket (segmentAt 101 950)).2.cb.rcvWnd.toNat) :=
  (window_test_exact_iff (by decide) (by decide +kernel)).mpr (by decide +kernel)

/-- A receive buffer with room for one byte, which has come. -/
def oneByteFull : Endpoint :=
  (init 0 0 0 Env.zero).run
    [.setRcvBuf 1, .connect 0,
      .datagram (UdtHdr.mk 0 (UdtHdr.TH_SYN ||| UdtHdr.TH_ACK) 4000 0 20 0 1 0) [],
      .datagram (UdtHdr.mk 0 UdtHdr.TH_ACK 4000 1 20 1 1 0) [7]]

/-- The window is empty, and a byte half a circle ahead of `m_rcv_nxt` is not dropped. -/
theorem half_circle_ahead_accepted :
    let p := segmentAt (2 + 0x80000000) 1
    hasSyn p.hdr.flags = false ∧ oneByteFull.cb.state = .established ∧
      oneByteFull.cb.rcvNxt = 2 ∧ (oneByteFull.dropOutOfRcvWndPacket p).2.cb.rcvWnd = 0 ∧
      (oneByteFull.dropOutOfRcvWndPacket p).1 = false ∧
      ¬ (p.hdr.seq - oneByteFull.cb.rcvNxt).toNat + p.hdr.len.toNat ≤
        (oneByteFull.dropOutOfRcvWndPacket p).2.cb.rcvWnd.toNat := by
  decide +kernel

end Endpoint

end UdtBoost
