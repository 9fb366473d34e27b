import UdtBoost.Sent

/-! Flow control of the sender: where the last byte of a segment lies in the peer's window. -/
namespace UdtBoost

/-- The last byte of the segment is inside the peer's window, in modular order. -/
def Transmission.InWindow (t : Transmission) : Prop :=
  (t.hdr.seq + t.hdr.len.setWidth 32 - t.before.cb.sndUna).toInt ≤ t.before.cb.sndWnd.toNat

instance (t : Transmission) : Decidable t.InWindow := inferInstanceAs (Decidable (_ ≤ _))

namespace Conn

/-- Nothing lies between `m_snd_nxt` and the packet to be sent, or what lies there still fits
into the room that the window leaves beside the packet. During the handshake every segment
starts at `m_iss`. -/
def NoHole (c : Conn) : Prop :=
  hasSyn c.cb.state.outflags = false → ∀ p, c.candidate = some p → p.hdr.seq ≠ c.cb.sndNxt →
    (p.hdr.seq - c.cb.sndNxt).toNat + p.hdr.len.toNat ≤ c.cb.remainSndWnd.toNat

theorem toInt_neg (x : Word) : x.toInt < 0 ↔ 2147483648 ≤ x.toNat := by
  rw [Serial.toInt_neg_iff]
  omega

theorem canSendBytes_le (c : Conn) : c.canSendBytes.toNat ≤ c.cb.remainSndWnd.toNat := by
  have remain : ¬ c.cb.remainSndWnd.toInt < 0 := by
    unfold UdtCb.remainSndWnd
    dsimp only
    split
    · simp
    · assumption
  rw [canSendBytes]
  generalize c.cb.remainSndWnd = r at remain ⊢
  generalize c.cb.sndCwnd - c.cb.bytesInflight = m
  by_cases less : r.toInt < m.toInt
  · rw [if_pos less, if_neg remain]
  · rw [if_neg less]
    split
    · exact Nat.zero_le _
    · next positive =>
        have small : m.toNat < 2147483648 := not_le.mp fun h => positive ((toInt_neg _).mpr h)
        have large : r.toNat < 2147483648 := not_le.mp fun h => remain ((toInt_neg _).mpr h)
        rw [BitVec.toInt_eq_toNat_cond, BitVec.toInt_eq_toNat_cond] at less
        omega

theorem remainSndWnd_eq {c : UdtCb} (some_ : c.remainSndWnd ≠ 0) :
    c.remainSndWnd = c.sndWnd - (c.sndNxt - c.sndUna) ∧ c.remainSndWnd.toNat < 2147483648 := by
  unfold UdtCb.remainSndWnd at some_ ⊢
  dsimp only at some_ ⊢
  split at some_
  · contradiction
  · next positive =>
      rw [if_neg positive]
      exact ⟨rfl, not_le.mp fun h => positive ((toInt_neg _).mpr h)⟩

end Conn

theorem toInt_sub_le {w d : Word} (small : d.toNat ≤ 2147483648) : (w - d).toInt ≤ w.toNat := by
  have bound := w.isLt
  rw [BitVec.toInt_eq_toNat_cond, BitVec.toNat_sub]
  split <;> omega

theorem toNat_sub_sub {r gap len : Word} (fits : gap.toNat + len.toNat ≤ r.toNat) :
    (r - gap - len).toNat = r.toNat - gap.toNat - len.toNat := by
  have first : (r - gap).toNat = r.toNat - gap.toNat :=
    BitVec.toNat_sub_of_le (BitVec.le_def.mpr (by omega))
  have second : (r - gap - len).toNat = (r - gap).toNat - len.toNat :=
    BitVec.toNat_sub_of_le (BitVec.le_def.mpr (by omega))
  omega

/-- A segment that starts `back` before a gap behind `nxt` ends inside the window `w`. -/
theorem end_in_window {w r nxt una seq len : Word} (back : Word) (remain : r = w - (nxt - una))
    (small : r.toNat < 2147483648) (fits : (seq - nxt).toNat + len.toNat ≤ r.toNat)
    (near : back.toNat ≤ 1) : (seq - back + len - una).toInt ≤ w.toNat := by
  have place : seq - back + len - una = w - (r - (seq - nxt) - len + back) := by
    rw [remain]
    ring
  have left := toNat_sub_sub fits
  rw [place]
  apply toInt_sub_le
  rw [BitVec.toNat_add]
  omega

/-- During the handshake all numbers in use are near the initial one, where segments start. -/
theorem end_in_window_syn {w r nxt una iss len : Word} (remain : r = w - (nxt - una))
    (small : r.toNat < 2147483648) (fits : len.toNat ≤ r.toNat) (short : len.toNat < 65536)
    (unaNear : (una - iss).toNat ≤ 65537) (nxtNear : (nxt - iss).toNat ≤ 65537) :
    (iss + len - una).toInt ≤ w.toNat := by
  have window : w = r + (nxt - iss) - (una - iss) := by
    rw [remain]
    ring
  have place : iss + len - una = len - (una - iss) := by ring
  rw [place, window]
  generalize una - iss = a at unaNear ⊢
  generalize nxt - iss = n at nxtNear ⊢
  rw [BitVec.toInt_eq_toNat_cond, BitVec.toNat_sub, BitVec.toNat_sub, BitVec.toNat_add]
  split <;> omega

theorem Sends.payload {s : Endpoint} {pkt : Option UdtPacket} {nxt : Word} {t : Transmission}
    {c' : Core} (sends : Sends s.toConn.core pkt nxt t c') (choice : s.Choice pkt nxt)
    (data : t.hdr.len ≠ 0) :
    ∃ p, s.candidate = some p ∧ nxt = p.hdr.seq ∧ t.hdr.len = p.hdr.len ∧
      p.hdr.len.setWidth 32 ≤ s.room := by
  have len := sends.len
  cases choice with
  | nothing =>
      have : (t.hdr.len.setWidth 32).toNat = 0 := by rw [len]; rfl
      exact absurd (by bv_omega) data
  | closedWindow =>
      have : (t.hdr.len.setWidth 32).toNat = 0 := by rw [len]; rfl
      exact absurd (by bv_omega) data
  | packet _ selected =>
      obtain ⟨_, same, _⟩ := selected.queued
      refine ⟨_, selected.first, rfl, ?_, selected.fits⟩
      rw [Conn.pktLen, Option.map_some, Option.getD_some, same] at len
      bv_omega

/-- Where such a segment starts: at its packet, or a FIN sent before steps back by one. -/
theorem Sends.start {c c' : Core} {pkt : Option UdtPacket} {nxt : Word} {t : Transmission}
    (sends : Sends c pkt nxt t c') (data : t.hdr.len ≠ 0)
    (plain : hasSyn c.state.outflags = false) : t.hdr.seq = nxt ∨ t.hdr.seq = nxt - 1 := by
  rcases sends.seq with start | ⟨bare, _⟩
  · have noSyn : hasSyn t.hdr.flags = false := by rw [sends.flags, Core.outputFlags_syn, plain]
    rw [start, Core.rewound, noSyn]
    simp only [Bool.false_eq_true, if_false]
    split
    · exact .inr rfl
    · exact .inl rfl
  · exact absurd bare data

theorem Sends.start_syn {c c' : Core} {pkt : Option UdtPacket} {nxt : Word} {t : Transmission}
    (sends : Sends c pkt nxt t c') (data : t.hdr.len ≠ 0)
    (syn : hasSyn c.state.outflags = true) : t.hdr.seq = c.iss := by
  rcases sends.seq with start | ⟨bare, _⟩
  · have isSyn : hasSyn t.hdr.flags = true := by rw [sends.flags, Core.outputFlags_syn, syn]
    have noFin : hasFin t.hdr.flags = false := by
      rw [sends.flags, Core.outputFlags_syn_fin _ _ syn]
    simp [start, Core.rewound, isSyn, noFin]
  · exact absurd bare data

theorem Transmission.inWindow {t : Transmission} (real : t.Real) (near : t.before.core.SynNear)
    (unforced : t.before.cb.force = false) (data : t.hdr.len ≠ 0) (noHole : t.before.NoHole) :
    t.InWindow := by
  obtain ⟨s, pkt, nxt, c', before, choice, sends⟩ := real
  obtain ⟨p, first, start, len, fits⟩ := sends.payload choice data
  rw [InWindow, before, len]
  rw [before] at near unforced noHole
  rw [len] at data
  have room : s.room = s.canSendBytes := by
    rw [Conn.room, Conn.outputForce, unforced]
    simp
  have within : p.hdr.len.toNat ≤ s.cb.remainSndWnd.toNat := by
    have bound := s.toConn.canSendBytes_le
    rw [room] at fits
    bv_omega
  have some_ : s.cb.remainSndWnd ≠ 0 := by
    intro none
    rw [none] at within
    exact data (by bv_omega)
  obtain ⟨remain, small⟩ := Conn.remainSndWnd_eq some_
  have wide : (p.hdr.len.setWidth 32).toNat = p.hdr.len.toNat := by
    rw [BitVec.toNat_setWidth]
    omega
  by_cases syn : hasSyn s.cb.state.outflags = true
  case pos =>
    -- the segment starts at m_iss, which the numbers in use are near
    obtain ⟨una, max, next⟩ := near syn
    rw [sends.start_syn (len ▸ data) syn]
    exact end_in_window_syn remain small (by rwa [wide]) (by rw [wide]; exact p.hdr.len.isLt)
      (una.trans max) next
  case neg =>
    rw [Bool.not_eq_true] at syn
    have gap : (p.hdr.seq - s.cb.sndNxt).toNat + p.hdr.len.toNat ≤ s.cb.remainSndWnd.toNat := by
      by_cases next : p.hdr.seq = s.cb.sndNxt
      · rw [next, BitVec.sub_self]
        simpa using within
      · exact noHole syn p first next
    rw [← wide] at gap
    rcases sends.start (len ▸ data) syn with at_ | below
    · have inside := end_in_window 0 remain small gap (by simp)
      rwa [at_, start, ← BitVec.sub_zero p.hdr.seq]
    · have inside := end_in_window 1 remain small gap (by simp)
      rwa [below, start]

namespace Endpoint

/-- In every run each segment with payload that is sent without force lies in the peer's
window if no hole was jumped over to reach its packet. -/
theorem sends_in_window (fack sndSeq rcvSeq : Word) (env : Env) (es : List Event) :
    ∀ t ∈ ((init fack sndSeq rcvSeq env).run es).sent, t.before.cb.force = false →
      t.hdr.len ≠ 0 → t.before.NoHole → t.InWindow := by
  intro t member unforced data noHole
  obtain ⟨real, near⟩ := (run_logged fack sndSeq rcvSeq env es).sent t member
  exact t.inWindow real near unforced data noHole

end Endpoint

end UdtBoost
