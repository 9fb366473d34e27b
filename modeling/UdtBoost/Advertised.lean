import UdtBoost.ReasmQueue
import UdtBoost.Sent

/-! The window `output` advertises. `rcv_win` starts from the free space of `rcv_buf`, except for a
segment with data, where its initialiser is jumped over. -/
namespace UdtBoost

/-- The advertised right edge, as far after `m_rcv_nxt` as the code's `long` says. -/
def Core.edge (c : Core) : Int := (c.rcvAdv - c.rcvNxt).toInt

/-- What silly window avoidance reads as no window. -/
def Conn.sillyWin (c : Conn) (rcvWin : Word) : Prop :=
  rcvWin.toInt < (c.sk.rcvBuf.hiwat / 4).toInt ∧ rcvWin.toInt < c.cb.maxseg.toNat

instance (c : Conn) (rcvWin : Word) : Decidable (c.sillyWin rcvWin) :=
  inferInstanceAs (Decidable (_ ∧ _))

/-- The free space of `rcv_buf`, or what is left of the window shown before. -/
def Core.credit (c : Core) : Int := max c.rcvBuf.acc.toNat c.edge

namespace Conn

variable {c : Conn} {rcvWin : Word}

/-- The clamps come to the free space or the edge shown before, whichever is further. -/
theorem clampRcvWin_bounds (limit : c.sk.rcvBuf.hiwat = UdtBuf.DEFAULT_BUFFER_SIZE)
    (room : c.sk.rcvBuf.acc.toNat ≤ 32768) (edge : c.core.edge ≤ c.sk.rcvBuf.acc.toNat)
    (fair : rcvWin.toInt ≤ c.core.credit ∨ c.sillyWin rcvWin) :
    0 ≤ (c.clampRcvWin rcvWin).toInt ∧ c.core.edge ≤ (c.clampRcvWin rcvWin).toInt ∧
      (c.clampRcvWin rcvWin).toInt ≤ c.core.credit := by
  have quarter : (c.sk.rcvBuf.hiwat / 4).toInt = 8192 := by
    rw [limit]
    decide
  have most : TCP_MAXWIN.toInt = 65535 := by decide
  have none : (0 : Word).toInt = 0 := by decide
  have credit : c.core.credit = c.sk.rcvBuf.acc.toNat := max_eq_left edge
  change (c.cb.rcvAdv - c.cb.rcvNxt).toInt ≤ _ at edge
  change 0 ≤ _ ∧ (c.cb.rcvAdv - c.cb.rcvNxt).toInt ≤ _ ∧ _
  unfold sillyWin at fair
  unfold clampRcvWin
  rw [credit] at fair ⊢
  dsimp only
  generalize c.cb.rcvAdv - c.cb.rcvNxt = adv at edge ⊢
  rw [quarter] at fair ⊢
  split_ifs <;> omega

end Conn

namespace Transmission

/-- A segment with data finds nothing in `rcv_win` that lets it show more than the others do. -/
def Fair (t : Transmission) : Prop :=
  t.hdr.len ≠ 0 → t.staleRcvWin.toInt ≤ t.before.core.credit ∨ t.before.sillyWin t.staleRcvWin

instance (t : Transmission) : Decidable t.Fair := inferInstanceAs (Decidable (_ → _))

/-- The window shown is at most the credit, and its right edge is not behind the one before. -/
structure Honest (t : Transmission) : Prop where
  credit : (t.hdr.win.toNat : Int) ≤ t.before.core.credit
  edge : t.before.core.edge ≤ t.hdr.win.toNat

end Transmission

/-- `rcv_buf` under the limit it was made with. -/
structure UdtBuf.Stocked (b : UdtBuf) : Prop where
  bounded : b.Bounded
  limit : b.hiwat = DEFAULT_BUFFER_SIZE

/-- What is shown of `rcv_buf` is there, in the state and in every segment sent. -/
structure View.Advertises (v : View) : Prop where
  edge : v.edge ≤ v.rcvBuf.acc.toNat
  sent : ∀ t ∈ v.sent, t.Honest

theorem UdtBuf.Stocked.small {b : UdtBuf} (stocked : b.Stocked) : b.acc.toNat ≤ 32768 := by
  obtain ⟨bounded, limit⟩ := stocked
  have inside := bounded.limit
  rw [BitVec.le_def, limit] at inside
  have size : UdtBuf.DEFAULT_BUFFER_SIZE.toNat = 32768 := by decide
  unfold UdtBuf.acc
  rw [limit]
  bv_omega

/-- A raised right edge is as far from `m_rcv_nxt` as the window that raised it. -/
theorem Sends.edge_cases {c c' : Core} {pkt : Option UdtPacket} {nxt : Word} {t : Transmission}
    (sends : Sends c pkt nxt t c') :
    c'.edge = c.edge ∨ c'.edge = t.rcvWin.toInt ∧ 0 < t.rcvWin.toInt := by
  unfold Core.edge
  rw [sends.moved]
  dsimp only
  split
  · next positive =>
      rcases seqMax_cases (c.rcvNxt + t.rcvWin) c.rcvAdv with ⟨raised, _⟩ | ⟨same, _⟩
      · have start : c.rcvNxt + t.rcvWin - c.rcvNxt = t.rcvWin := by bv_omega
        exact .inr ⟨by rw [raised, start], positive⟩
      · exact .inl (by rw [same])
  · exact .inl rfl

theorem toNat_ushort {w : Word} (positive : 0 ≤ w.toInt) (small : w.toInt ≤ 32768) :
    ((w.setWidth 16).toNat : Int) = w.toInt := by
  have cond := BitVec.toInt_eq_toNat_cond w
  have less := w.isLt
  rw [BitVec.toNat_setWidth]
  split at cond <;> omega

/-- What one transmission shows. -/
theorem Sends.shows {c c' : Core} {pkt : Option UdtPacket} {nxt : Word} {t : Transmission}
    (sends : Sends c pkt nxt t c') (stocked : c.rcvBuf.toUdtBuf.Stocked)
    (edge : c.edge ≤ c.rcvBuf.acc.toNat) (fair : t.Fair) :
    t.Honest ∧ c'.edge ≤ c.rcvBuf.acc.toNat := by
  have room := stocked.small
  have limit := stocked.limit
  have before := sends.before
  rw [← before] at limit edge room
  have credit : t.before.core.credit = t.before.sk.rcvBuf.acc.toNat := max_eq_left edge
  have raw : t.rawRcvWin.toInt ≤ t.before.core.credit ∨ t.before.sillyWin t.rawRcvWin := by
    unfold Transmission.rawRcvWin
    split
    · next data => exact fair data
    · left
      rw [credit, BitVec.toInt_eq_toNat_of_lt]
      change t.before.sk.rcvBuf.acc.toNat ≤ 32768 at room
      omega
  obtain ⟨positive, notLeft, most⟩ := Conn.clampRcvWin_bounds limit room edge raw
  change 0 ≤ t.rcvWin.toInt at positive
  change _ ≤ t.rcvWin.toInt at notLeft
  change t.rcvWin.toInt ≤ _ at most
  change t.before.core.rcvBuf.acc.toNat ≤ 32768 at room
  have shown : (t.hdr.win.toNat : Int) = t.rcvWin.toInt := by
    rw [credit] at most
    change _ ≤ (t.before.core.rcvBuf.acc.toNat : Int) at most
    rw [sends.win]
    exact toNat_ushort positive (by omega)
  refine ⟨⟨by rw [shown]; exact most, by rw [shown]; exact notLeft⟩, ?_⟩
  rw [before] at edge
  rcases sends.edge_cases with same | ⟨raised, _⟩
  · rw [same]
    exact edge
  · rw [raised, ← before]
    rw [credit] at most
    exact most

/-- `m_rcv_nxt` may advance by `n` and be less than half a circle past the edge shown. -/
def Core.Trails (c : Core) (n : Nat) : Prop := -2 ^ 31 + (n : Int) ≤ c.edge

instance (c : Core) (n : Nat) : Decidable (c.Trails n) := inferInstanceAs (Decidable (_ ≤ _))

/-- What is needed of a step: the limit stays, and `m_rcv_nxt` does not get too far. -/
def Slides (v : View) : Act → Prop
  | .rcvLimit _ => False
  | .store _ => v.Trails 32768
  | .fin => v.Trails 1
  | _ => True

theorem edge_advance {adv nxt : Word} {n : Nat} (near : -2 ^ 31 + (n : Int) ≤ (adv - nxt).toInt)
    (small : n ≤ 32768) : (adv - (nxt + BitVec.ofNat 32 n)).toInt = (adv - nxt).toInt - n := by
  have split : adv - (nxt + BitVec.ofNat 32 n) = adv - nxt - BitVec.ofNat 32 n := by bv_omega
  rw [split]
  generalize adv - nxt = d at near ⊢
  have cond := BitVec.toInt_eq_toNat_cond d
  have cond' := BitVec.toInt_eq_toNat_cond (d - BitVec.ofNat 32 n)
  have less := d.isLt
  have sub : (d - BitVec.ofNat 32 n).toNat = (2 ^ 32 - n + d.toNat) % 2 ^ 32 := by
    rw [BitVec.toNat_sub, BitVec.toNat_ofNat]
    omega
  split at cond <;> split at cond' <;> omega

theorem take_acc {b : UdtRcvBuf} {run kept : List UdtPacket} (room : totalLen run ≤ b.acc.toNat) :
    (b.take run kept).acc.toNat = b.acc.toNat - totalLen run := by
  simp only [UdtRcvBuf.take, UdtBuf.acc] at *
  bv_omega

theorem Step.stocked {v w : View} {a : Act} (step : Step v a w)
    (stocked : v.rcvBuf.toUdtBuf.Stocked) (slides : Slides v a) : w.rcvBuf.toUdtBuf.Stocked := by
  obtain ⟨bounded, limit⟩ := stocked
  constructor
  · refine step.bounded bounded fun n same => ?_
    rw [same] at slides
    exact absurd slides not_false
  · cases step with
    | transmit _ _ sends =>
        rw [sends.moved]
        exact limit
    | @dispatch op => exact (v.rcvBuf.toUdtBuf.copy_cc op.buf.size.toNat).2.trans limit
    | @discard n => exact (v.rcvBuf.toUdtBuf.copy_cc n).2.trans limit
    | rcvLimit => exact absurd slides not_false
    | _ => exact limit

theorem Step.advertises {v w : View} {a : Act} (step : Step v a w)
    (stocked : v.rcvBuf.toUdtBuf.Stocked) (adv : v.Advertises) (fair : ∀ t ∈ w.sent, t.Fair)
    (slides : Slides v a) : w.Advertises := by
  have small := stocked.small
  obtain ⟨edge, sent⟩ := adv
  cases step with
  | @transmit c' pkt nxt t chosen alive sends =>
      have same : c'.rcvBuf = v.rcvBuf := by rw [sends.moved]
      obtain ⟨honest, shown⟩ := sends.shows stocked edge (fair t (by simp))
      refine ⟨by rw [same]; exact shown, fun x member => ?_⟩
      rcases List.mem_append.mp member with old | new
      · exact sent x old
      · obtain rfl := List.mem_singleton.mp new
        exact honest
  | @store p below above run kept _ _ _ _ _ room =>
      refine ⟨?_, sent⟩
      have near : -2 ^ 31 + (32768 : Int) ≤ v.edge := slides
      have moved := edge_advance (n := totalLen run) (le_trans (by omega) near) (by omega)
      change (v.rcvAdv - (v.rcvNxt + BitVec.ofNat 32 (totalLen run))).toInt ≤
        ((v.rcvBuf.take run kept).acc.toNat : Int)
      rw [moved, take_acc room]
      change v.edge - _ ≤ _
      omega
  | fin =>
      refine ⟨?_, sent⟩
      have near : -2 ^ 31 + ((1 : Nat) : Int) ≤ v.edge := slides
      have moved := edge_advance near (by omega)
      change (v.rcvAdv - if v.state.haveRcvdFin = true then v.rcvNxt else v.rcvNxt + 1).toInt ≤ _
      split
      · exact edge
      · change (v.rcvAdv - (v.rcvNxt + BitVec.ofNat 32 1)).toInt ≤ (v.rcvBuf.acc.toNat : Int)
        rw [moved]
        change v.edge - _ ≤ _
        omega
  | syn =>
      refine ⟨?_, sent⟩
      have none : ∀ x : Word, (x - x).toInt = 0 := fun x => by simp
      exact (none _).trans_le (Int.natCast_nonneg _)
  | @dispatch op =>
      have grown := UdtBuf.copy_acc stocked.bounded op.buf.size.toNat
      exact ⟨edge.trans (Int.ofNat_le.mpr grown), sent⟩
  | @discard n =>
      have grown := UdtBuf.copy_acc stocked.bounded n
      exact ⟨edge.trans (Int.ofNat_le.mpr grown), sent⟩
  | close =>
      refine ⟨?_, sent⟩
      have all : v.rcvBuf.clear.acc.toNat = 32768 := by
        change (v.rcvBuf.hiwat - 0).toNat = _
        rw [stocked.limit]
        decide
      rw [all]
      exact edge.trans (Int.ofNat_le.mpr small)
  | rcvLimit => exact absurd slides not_false
  | _ => exact ⟨edge, sent⟩

theorem Core.Trails.mono {c : Core} {m n : Nat} (trails : c.Trails m) (less : n ≤ m) : c.Trails n := by
  unfold Trails at *
  omega

/-- Only what is stored, and the FIN, bring `m_rcv_nxt` nearer to half a circle. -/
theorem Step.trails {v w : View} {a : Act} {n : Nat} (step : Step v a w) (trails : v.Trails n)
    (small : n ≤ 2 ^ 31) (still : a ≠ .fin ∧ ∀ p, a ≠ .store p) : w.Trails n := by
  cases step with
  | transmit _ _ sends =>
      change _ ≤ Core.edge _
      rcases sends.edge_cases with same | ⟨raised, positive⟩
      · rw [same]
        exact trails
      · rw [raised]
        omega
  | syn =>
      have none : ∀ x : Word, (x - x).toInt = 0 := fun x => by simp
      change _ ≤ (_ : Int)
      refine le_trans ?_ (none _).ge
      omega
  | store => exact absurd rfl (still.2 _)
  | fin => exact absurd rfl still.1
  | _ => exact trails

namespace Endpoint

variable {s t : Endpoint} {p : UdtPacket} {e : Event}

theorem handleAck_trails {n : Nat} (trails : s.view.Trails n) (small : n ≤ 2 ^ 31) :
    (s.handleAck p).2.view.Trails n := by
  have ok : AckOk (fun _ a => a ≠ .fin ∧ ∀ p, a ≠ .store p) s p := by
    refine ⟨?_, ?_, ?_, ?_, ?_, ?_⟩
    all_goals intros; simp
  exact (s.handleAck_path p ok).invariant (I := fun v => v.Trails n) trails
    fun v a w trails still step => step.trails trails small still

theorem stored_trails {n : Nat} (trails : s.view.Trails (n + 32768))
    (room : s.sk.rcvBuf.acc.toNat ≤ 32768) : (s.stored p).view.Trails n := by
  have less := trails.mono (Nat.le_add_right n 32768)
  unfold stored
  split
  case isFalse => exact less
  rcases s.TCP_REASS_spec p with unstored | ⟨below, above, run, kept, stored⟩
  · obtain ⟨flags, _, _, result⟩ := unstored.result
    rw [result]
    exact less
  · obtain ⟨flags, _, _, result⟩ := stored.result
    have fits := stored.room
    unfold Core.Trails at trails
    have moved : (s.cb.rcvAdv - (s.cb.rcvNxt + BitVec.ofNat 32 (totalLen run))).toInt =
        (s.cb.rcvAdv - s.cb.rcvNxt).toInt - totalLen run :=
      edge_advance (le_trans (by push_cast; omega) trails) (by omega)
    rw [result]
    change _ ≤ (s.cb.rcvAdv - (s.cb.rcvNxt + BitVec.ofNat 32 (totalLen run))).toInt
    rw [moved]
    change _ ≤ s.view.edge - _
    push_cast at trails
    omega

/-- Between its SYN and its FIN a segment is stored once. -/
theorem segment_slides (trails : s.view.Trails 65536) (room : s.sk.rcvBuf.acc.toNat ≤ 32768) :
    SegmentOk Slides s p := by
  have stored : (s.stored p).view.Trails 1 := stored_trails (trails.mono (by omega)) room
  refine ⟨fun _ => trails.mono (by omega), fun _ => ?_,
    fun _ _ _ => handleAck_trails stored (by omega), fun _ _ => stored⟩
  refine ⟨?_, ?_, ?_, ?_, ?_, ?_⟩
  all_goals intros; trivial

theorem packet_slides (trails : s.view.Trails 65536) (room : s.sk.rcvBuf.acc.toNat ≤ 32768) :
    PacketOk Slides s p := by
  have buffer : ∀ x : Endpoint, x.view = s.view → x.sk.rcvBuf = s.sk.rcvBuf := fun x view =>
    congrArg (fun v : View => v.rcvBuf) view
  refine ⟨fun _ => trivial, fun _ _ => trivial, fun _ _ _ _ => trails.mono (by omega),
    fun _ _ x view => ?_, fun _ _ => trivial, fun _ _ x view _ => ?_⟩
  · exact segment_slides (by rw [view]; exact trails) (by rw [buffer x view]; exact room)
  · refine segment_slides ?_ ?_
    · have path := x.handleSyn_path (C := fun _ a => a = .syn p) p rfl
      rw [view] at path
      refine path.invariant (I := fun v => v.Trails 65536) trails fun v a w trails isSyn step => ?_
      rw [isSyn] at step
      exact step.trails trails (by omega) (by simp)
    · have same : (x.handleSyn p).2.2.sk.rcvBuf = x.sk.rcvBuf := by
        obtain ⟨_, _, _, result⟩ := x.handleSyn_eq p
        rw [result]
        split <;> rfl
      rw [same, buffer x view]
      exact room

/-- The receive limit is left alone, and a packet finds the edge shown less than half a circle
behind `m_rcv_nxt`. -/
def Current (s : Endpoint) (e : Event) : Prop :=
  (∀ v, e ≠ .setRcvBuf v) ∧ ∀ p ∈ s.arriving e, s.view.Trails 65536

theorem keeps_rcvBuf_iff (e : Event) :
    ¬ (e matches .setRcvBuf _) = true ↔ ∀ v, e ≠ .setRcvBuf v := by
  cases e <;> simp

instance (s : Endpoint) (e : Event) : Decidable (s.Current e) :=
  have := decidable_of_iff _ (keeps_rcvBuf_iff e)
  inferInstanceAs (Decidable (_ ∧ _))

/-- An event is a path on which `m_rcv_nxt` does not get too far. -/
theorem slides_path (stocked : s.sk.rcvBuf.toUdtBuf.Stocked) (current : s.Current e) :
    ViewPath Slides s.view (s.step e).view := by
  cases here : s.arriving e with
  | none =>
      refine quiet_path here (fun v a free other => ?_) fun w same => absurd same (current.1 w)
      cases a with
      | rcvLimit w => exact absurd rfl (other w)
      | store | fin => exact absurd free not_false
      | _ => trivial
  | some p =>
      have ok : PacketOk Slides s p := packet_slides (current.2 p here) stocked.small
      exact (s.inputChecked_path p ok).trans ((arriving_path here).of_tau fun _ => trivial)

end Endpoint

theorem Step.sent_kept {v w : View} {a : Act} (step : Step v a w) : ∀ t ∈ v.sent, t ∈ w.sent := by
  cases step with
  | transmit => exact fun t member => List.mem_append_left _ member
  | _ => exact fun _ member => member

namespace Endpoint

/-- In every run that leaves the receive limit alone and stays current, what is shown of the window
is there, as long as no segment with data found more in `rcv_win`. -/
theorem advertised_window_honest (fack sndSeq rcvSeq : Word) (env : Env) (es : List Event)
    (current : Trace.Meets step Current (init fack sndSeq rcvSeq env) es)
    (fair : ∀ t ∈ ((init fack sndSeq rcvSeq env).run es).sent, t.Fair) :
    let s := (init fack sndSeq rcvSeq env).run es
    (s.cb.rcvAdv - s.cb.rcvNxt).toInt ≤ s.sk.rcvBuf.acc.toNat ∧ ∀ t ∈ s.sent, t.Honest := by
  have kept : ∀ v a w, v.rcvBuf.toUdtBuf.Stocked ∧ ((∀ t ∈ v.sent, t.Fair) → v.Advertises) →
      Slides v a → Step v a w →
      w.rcvBuf.toUdtBuf.Stocked ∧ ((∀ t ∈ w.sent, t.Fair) → w.Advertises) := by
    intro v a w ⟨stocked, shows⟩ slides step
    refine ⟨step.stocked stocked slides, fun fair => ?_⟩
    have before := shows fun t member => fair t (step.sent_kept t member)
    exact step.advertises stocked before fair slides
  have fresh : ((0 : Word) - 0).toInt ≤ 0 := by decide
  have run := current.invariant (I := fun s => s.view.rcvBuf.toUdtBuf.Stocked ∧
      ((∀ t ∈ s.view.sent, t.Fair) → s.view.Advertises))
    ⟨⟨(init_tidy fack sndSeq rcvSeq env).bounded, rfl⟩, fun _ => ⟨fresh.trans (Int.natCast_nonneg _), by simp [view, init]⟩⟩
    fun s e holds current => (slides_path holds.1 current).invariant holds kept
  obtain ⟨edge, sent⟩ := run.2 fair
  exact ⟨edge, sent⟩

/-- An open connection that sends one byte. -/
def sendsByte : List Event := opened ++ [.sendByte 7]

theorem advertised_window_honest_byte :
    let s := (init 0 0 0 Env.zero).run sendsByte
    (s.cb.rcvAdv - s.cb.rcvNxt).toInt ≤ s.sk.rcvBuf.acc.toNat ∧ ∀ t ∈ s.sent, t.Honest :=
  advertised_window_honest 0 0 0 Env.zero sendsByte (by decide +kernel) (by decide +kernel)

/-- A byte is sent where `rcv_win` was left at 65535: the window shown is twice the buffer. -/
theorem stale_window_advertised :
    let s := (init 0 0 0 { Env.zero with staleRcvWin := fun _ => 65535 }).run sendsByte
    s.sk.rcvBuf.hiwat = UdtBuf.DEFAULT_BUFFER_SIZE ∧
      (s.cb.rcvAdv - s.cb.rcvNxt).toInt = 65535 ∧ s.sk.rcvBuf.acc = 32768 ∧
      ∃ t ∈ s.sent, t.hdr.len = 1 ∧ t.hdr.win = 65535 ∧ t.before.core.credit = 32768 := by
  decide +kernel

end Endpoint

end UdtBoost
