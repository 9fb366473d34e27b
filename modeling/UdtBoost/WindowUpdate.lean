import UdtBoost.Effects

/-! Window updates under reordering. A sender takes `m_snd_una` and `m_snd_wnd` from the peer's
advertisements; which of them it holds decides whether a stale one can shrink its view. -/
namespace UdtBoost

/-- Blocks that take an acknowledgement or a window from a packet. -/
def Tag.Takes : Tag → Prop
  | .syn _ | .ackAll _ | .window _ | .ack _ => True
  | _ => False

namespace Endpoint

/-- ESTABLISHED and later states. -/
def Opened (s : Endpoint) : Prop := TcpState.established.value ≤ s.cb.state.value

instance (s : Endpoint) : Decidable s.Opened := inferInstanceAs (Decidable (_ ≤ _))

/-- `t` is open only when `s` was, and then shows the same window. -/
def Still (s t : Endpoint) : Prop :=
  t.Opened → s.Opened ∧ t.cb.sndUna = s.cb.sndUna ∧ t.cb.sndWnd = s.cb.sndWnd

theorem Still.refl (s : Endpoint) : Still s s := fun opened => ⟨opened, rfl, rfl⟩

theorem Still.trans {s t u : Endpoint} (first : Still s t) (second : Still t u) : Still s u := by
  intro opened
  obtain ⟨between, una, wnd⟩ := second opened
  obtain ⟨before, una', wnd'⟩ := first between
  exact ⟨before, una.trans una', wnd.trans wnd'⟩

theorem Still.of_eq {s t : Endpoint} (state : t.cb.state = s.cb.state)
    (una : t.cb.sndUna = s.cb.sndUna) (wnd : t.cb.sndWnd = s.cb.sndWnd) : Still s t := by
  intro opened
  exact ⟨by rwa [Opened, ← state], una, wnd⟩

theorem Still.of_steady {s t : Endpoint} (same : t.steady = s.steady) : Still s t :=
  .of_eq (congrArg Steady.state same) (congrArg Steady.sndUna same) (congrArg Steady.sndWnd same)

theorem Still.of_shut {s t : Endpoint} (shut : t.cb.state.value < 4) : Still s t := by
  intro opened
  rw [Opened, TcpState.value] at opened
  omega

theorem handleFin_still (s : Endpoint) : Still s s.handleFin := by
  obtain ⟨t2msl, drop, result⟩ := s.handleFin_eq
  have state : s.handleFin.cb.state = s.cb.state.finned ∧
      s.handleFin.cb.sndUna = s.cb.sndUna ∧ s.handleFin.cb.sndWnd = s.cb.sndWnd := by
    rw [result]
    split <;> exact ⟨rfl, rfl, rfl⟩
  intro opened
  refine ⟨?_, state.2⟩
  rw [Opened, state.1] at opened
  rw [Opened]
  cases state : s.cb.state <;> simp_all [TcpState.finned, TcpState.value]

theorem block_still {s t : Endpoint} {a : Tag} (block : Block s a t) (whole : a ≠ .disconnect)
    (plain : ¬ a.Takes) : Still s t := by
  cases block with
  | output block => exact .of_steady block.steady
  | read => exact .of_steady (inner_steady .read)
  | delayed => exact .of_steady (inner_steady .delayed)
  | notifySends =>
      rw [notifySends_eq]
      exact .of_eq rfl rfl rfl
  | notifyHandlers =>
      rw [postHandlers_eq]
      exact .of_eq rfl rfl rfl
  | disconnect => exact absurd rfl whole
  | sampled =>
      unfold updateRtt
      split
      · obtain ⟨srtt, rttvar, rxtcur, result⟩ := s.xmitTimer_eq s.cb.rtt
        rw [result]
        exact .of_eq rfl rfl rfl
      · exact .refl s
  | @reass p =>
      obtain ⟨_, _, _, _, _, _, result⟩ := s.TCP_REASS_eq p
      rw [result]
      exact .of_eq rfl rfl rfl
  | fack =>
      unfold UdtCb.updateSndFack
      split <;> exact .of_eq rfl rfl rfl
  | sacked =>
      rw [dropSndPkt_eq]
      exact .of_eq rfl rfl rfl
  | late =>
      obtain ⟨_, _, result⟩ := resetRexmtTimer_eq { s.cb with dupacks := 0 }
      rw [result]
      exact .of_eq rfl rfl rfl
  | duplicate =>
      obtain ⟨_, _, result⟩ := resetRexmtTimer_eq { s.cb with dupacks := s.cb.dupacks + 1 }
      rw [result]
      exact .of_eq rfl rfl rfl
  | @fastRexmt p =>
      exact (Still.of_eq rfl rfl rfl).trans (.of_steady (doFastRexmt_steady _ p.hdr.ack))
  | fin => exact s.handleFin_still
  | dropped => exact .of_shut (by simp [TcpState.value])
  | receiving =>
      obtain ⟨pkt, next, _, result⟩ := s.doReceive_eq
      rw [result]
      exact .of_eq rfl rfl rfl
  | rexmtBegun =>
      obtain ⟨_, _, _, _, _, _, _, _, _, _, result⟩ := s.rexmtBegun_eq
      rw [result]
      exact .of_eq rfl rfl rfl
  | persistBegun =>
      obtain ⟨_, _, _, _, _, result, _⟩ := s.persistBegun_eq
      rw [result]
      exact .of_eq rfl rfl rfl
  | @connect h alive state =>
      obtain ⟨pkt, next, _, result⟩ := s.connecting_eq h
      rw [result]
      exact .of_shut (by simp [TcpState.value])
  | @connectBusy h =>
      obtain ⟨pkt, next, _, result⟩ := ({ s with sk.connectHandler := some h } : Endpoint).doReceive_eq
      rw [result]
      exact .of_eq rfl rfl rfl
  | accept => exact .of_shut (by simp [TcpState.value])
  | @acceptBusy h =>
      obtain ⟨pkt, next, _, result⟩ := ({ s with sk.acceptHandler := some h } : Endpoint).doReceive_eq
      rw [result]
      exact .of_eq rfl rfl rfl
  | @shutdown h =>
      rw [closing_eq]
      intro opened
      refine ⟨?_, rfl, rfl⟩
      by_cases state : s.cb.state = .established
      · rw [Opened, state]
      · by_cases waiting : s.cb.state = .closeWait
        · rw [Opened, waiting]
          decide
        · rwa [Opened, if_neg state, if_neg waiting] at opened
  | mtu =>
      unfold UdtCb.setMtu
      split <;> exact .of_eq rfl rfl rfl
  | close => exact .of_shut (by simp [closed, UdtCb.canceltimers, TcpState.value])
  | ackPredicted | syn | ackAll | window | ackNew => exact absurd trivial plain
  | _ => exact .of_eq rfl rfl rfl

theorem path_still {C : Endpoint → Tag → Prop} {s t : Endpoint} (path : BlockPath C s t)
    (plain : ∀ s a, C s a → ¬ a.Takes) : Still s t := by
  refine path.invariant (I := Still s) (.refl s) fun x a y first met block => ?_
  refine Block.keeps block first fun {_ b _} whole tag inv block => inv.trans ?_
  refine block_still block whole ?_
  rcases tag with rfl | rfl | rfl | rfl
  · exact plain x _ met
  all_goals exact id

section Packet

variable {s t u : Endpoint} {ti : UdtHdr}

/-- The packet's acknowledgement, not an old one, and its window. -/
def Taken (ti : UdtHdr) (s t : Endpoint) : Prop :=
  hasAck ti.flags = true ∧ t.cb.sndUna = ti.ack ∧ t.cb.sndWnd = ti.win.setWidth 32 ∧
    (s.Opened → ¬ seqLt ti.ack s.cb.sndUna)

/-- What is shown after a packet: what was shown before, an acknowledgement with its window, or
the window of a SYN. -/
def Shown (ti : UdtHdr) (s t : Endpoint) : Prop :=
  t.Opened →
    (s.Opened ∧ t.cb.sndUna = s.cb.sndUna ∧ t.cb.sndWnd = s.cb.sndWnd) ∨ Taken ti s t ∨
      (s.Opened ∧ hasSyn ti.flags = true ∧ t.cb.sndUna = s.cb.sndUna ∧
        t.cb.sndWnd = ti.win.setWidth 32)

theorem Still.shown (calm : Still s t) : Shown ti s t := fun opened => .inl (calm opened)

theorem Shown.calm (shown : Shown ti s t) (calm : Still t u) : Shown ti s u := by
  intro opened
  obtain ⟨between, una, wnd⟩ := calm opened
  rcases shown between with ⟨before, una', wnd'⟩ | ⟨isAck, una', wnd', fresh⟩ |
    ⟨before, isSyn, una', wnd'⟩
  · exact .inl ⟨before, una.trans una', wnd.trans wnd'⟩
  · exact .inr (.inl ⟨isAck, una.trans una', wnd.trans wnd', fresh⟩)
  · exact .inr (.inr ⟨before, isSyn, una.trans una', wnd.trans wnd'⟩)

theorem Shown.of_eq (state : t.cb.state = s.cb.state) (una : t.cb.sndUna = s.cb.sndUna)
    (wnd : t.cb.sndWnd = s.cb.sndWnd) (shown : Shown ti t u) : Shown ti s u := by
  have opens : t.Opened ↔ s.Opened := by rw [Opened, Opened, state]
  unfold Shown Taken at shown ⊢
  rwa [opens, una, wnd] at shown

/-- Of what `output` leaves alone, an acknowledgement seen before moves the window. -/
theorem ackDuplicate_steady (s : Endpoint) (ti : UdtHdr) :
    (s.ackDuplicate ti).2.steady = { s.steady with sndWnd := ti.win.setWidth 32 } := by
  rw [ackDuplicate]
  dsimp only
  by_cases other : ti.win.setWidth 32 ≠ s.cb.sndWnd
  · rw [if_pos other]
    obtain ⟨_, _, result⟩ := s.ackWindow_eq (ti.win.setWidth 32)
    change (s.ackWindow (ti.win.setWidth 32)).steady = _
    rw [result]
    rfl
  rw [if_neg other, not_not.mp other]
  split
  · obtain ⟨_, _, result⟩ := resetRexmtTimer_eq { s.cb with dupacks := 0 }
    dsimp only
    rw [result]
    rfl
  split
  · exact doFastRexmt_steady
      ({ s with cb.dupacks := s.cb.dupacks + 1, cb.rtt := 0 } : Endpoint) ti.ack
  split
  · rfl
  · obtain ⟨_, _, result⟩ := resetRexmtTimer_eq { s.cb with dupacks := s.cb.dupacks + 1 }
    dsimp only
    rw [result]
    rfl

/-- `handle_ack` takes the window of every segment whose acknowledgement is not old. -/
theorem handleAck_shown (s : Endpoint) (p : UdtPacket) (isAck : hasAck p.hdr.flags = true) :
    Shown p.hdr s (s.handleAck p).2 := by
  rw [handleAck]
  dsimp only
  by_cases old : seqLt p.hdr.ack s.cb.sndUna
  · rw [if_pos old]
    exact (Still.refl s).shown
  rw [if_neg old]
  by_cases beyond : seqGt p.hdr.ack s.cb.sndMax
  · rw [if_pos beyond]
    exact Still.shown (.of_eq rfl rfl rfl)
  rw [if_neg beyond]
  generalize (if UdtHdr.size < p.hdr.off.toNat then
    (if s.cb.sndMax = p.hdr.ack then s.updateAckState else s).handleOptions p
    else if s.cb.sndMax = p.hdr.ack then s.updateAckState else s) = x
  intro _
  right
  left
  split
  · next same =>
      have steady := x.ackDuplicate_steady p.hdr
      exact ⟨isAck, (congrArg Steady.sndUna steady).trans same.symm, congrArg Steady.sndWnd steady,
        fun _ => old⟩
  · obtain ⟨_, _, _, _, _, _, _, _, _, result⟩ := x.ackNewData_eq p.hdr
    rw [result]
    exact ⟨isAck, rfl, rfl, fun _ => old⟩

theorem inputSegment_shown (s : Endpoint) (p : UdtPacket) : Shown p.hdr s (s.inputSegment p) := by
  have stored : (s.stored p).cb.state = s.cb.state ∧ (s.stored p).cb.sndUna = s.cb.sndUna ∧
      (s.stored p).cb.sndWnd = s.cb.sndWnd := by
    unfold Endpoint.stored
    split
    · obtain ⟨_, _, _, _, _, _, result⟩ := s.TCP_REASS_eq p
      rw [result]
      exact ⟨rfl, rfl, rfl⟩
    · exact ⟨rfl, rfl, rfl⟩
  obtain ⟨state, una, wnd⟩ := stored
  rw [inputSegment_eq]
  refine .of_eq state una wnd ?_
  generalize s.stored p = x
  split
  · next isAck =>
      have acked := x.handleAck_shown p isAck
      split
      · exact acked.calm (handleFin_still _)
      · exact acked
  · split
    · exact x.handleFin_still.shown
    · exact (Still.refl x).shown

theorem doHeaderPrediction_shown (s : Endpoint) (p : UdtPacket) :
    Shown p.hdr s (s.doHeaderPrediction p).2 := by
  rw [doHeaderPrediction]
  dsimp only
  split
  case isFalse => exact (Still.refl s).shown
  case isTrue usual =>
    obtain ⟨_, flags, _, _, win, _⟩ := usual
    obtain ⟨_, _, isAck⟩ := predicted_flags _ flags
    by_cases bare : p.hdr.len = 0
    case pos =>
      rw [if_pos bare]
      split
      case isFalse => exact (Still.refl s).shown
      case isTrue new =>
        obtain ⟨_, _, _, _, _, _, _, _, result⟩ := s.ackPredicted_eq p.hdr.ack
        have acked : Shown p.hdr s (s.ackPredicted p.hdr.ack) := by
          rw [result]
          exact fun _ => .inr (.inl ⟨isAck, rfl, win.symm, fun _ => not_seqLt_of_seqGt new.1⟩)
        have sent : Still (s.ackPredicted p.hdr.ack) (s.ackPredicted p.hdr.ack).outputData := by
          unfold outputData
          split
          · exact .of_steady (output_steady _)
          · exact .refl _
        exact acked.calm sent
    case neg =>
      rw [if_neg bare]
      split
      case isFalse => exact (Still.refl s).shown
      case isTrue room =>
        split
        · exact Still.shown (.of_eq rfl rfl rfl)
        · exact Still.shown (.of_eq rfl rfl rfl)

/-- A SYN sets the window whatever it acknowledges, in every state. -/
theorem syn_shown (s : Endpoint) (p : UdtPacket) (isSyn : hasSyn p.hdr.flags = true) :
    Shown p.hdr s (match s.handleSyn p with
      | (true, _, x) => x
      | (false, q, x) => x.inputSegment q) := by
  have counted : (s.handleSyn p).2.1 = { p with hdr.seq := p.hdr.seq + 1 } := by
    rw [handleSyn_counted s isSyn, UdtPacket.counted, if_pos isSyn]
  obtain ⟨_, _, _, result⟩ := s.handleSyn_eq p
  have synced : ∀ q : UdtPacket, q = { p with hdr.seq := p.hdr.seq + 1 } →
      ∀ t, t = (s.handleSyn p).2.2 ∨ Shown q.hdr (s.handleSyn p).2.2 t → Shown p.hdr s t := by
    rintro q rfl t after
    by_cases handshake : s.cb.state = .listen ∨ s.cb.state = .synSent ∨ s.cb.state = .synReceived
    case pos =>
      rw [if_pos handshake] at result
      have shut : ¬ s.Opened := by
        rcases handshake with state | state | state <;> simp [Opened, state, TcpState.value]
      have still : ¬ (s.handleSyn p).2.2.Opened := by
        rw [result]
        simp [Opened, TcpState.value]
      intro opened
      rcases after with rfl | after
      · exact absurd opened still
      rcases after opened with ⟨before, _⟩ | ⟨isAck, una, wnd, _⟩ | ⟨before, _⟩
      · exact absurd before still
      · exact .inr (.inl ⟨isAck, una, wnd, fun before => absurd before shut⟩)
      · exact absurd before still
    case neg =>
      rw [if_neg handshake] at result
      have opens : (s.handleSyn p).2.2.Opened ↔ s.Opened := by
        rw [result]
        rfl
      have una : (s.handleSyn p).2.2.cb.sndUna = s.cb.sndUna := by rw [result]
      have wnd : (s.handleSyn p).2.2.cb.sndWnd = p.hdr.win.setWidth 32 := by rw [result]
      intro opened
      rcases after with rfl | after
      · exact .inr (.inr ⟨opens.mp opened, isSyn, una, wnd⟩)
      rcases after opened with ⟨before, una', wnd'⟩ | ⟨isAck, una', wnd', fresh⟩ |
        ⟨before, _, una', wnd'⟩
      · exact .inr (.inr ⟨opens.mp before, isSyn, una'.trans una, wnd'.trans wnd⟩)
      · exact .inr (.inl ⟨isAck, una', wnd', fun before => una ▸ fresh (opens.mpr before)⟩)
      · exact .inr (.inr ⟨opens.mp before, isSyn, una'.trans una, wnd'⟩)
  generalize s.handleSyn p = outcome at counted synced ⊢
  obtain ⟨_ | _, q, x⟩ := outcome
  · exact synced q counted _ (.inr (x.inputSegment_shown q))
  · exact synced q counted _ (.inl rfl)

/-- The checks of `input` and what follows them. A packet that is not admitted shows nothing. -/
theorem inputChecked_shown (s : Endpoint) (p : UdtPacket) :
    Shown p.hdr s (s.inputChecked p) ∧ (s.admits p.hdr = false → Still s (s.inputChecked p)) := by
  rw [inputChecked]
  dsimp only
  have timed := updateRtt_view
    { s with cb.pseq := p.hdr.seq, cb.idle := 0, cb.tKeep := sKeepidle } p.hdr.pseq
  have wnd : (updateRtt { s with
      cb.pseq := p.hdr.seq, cb.idle := 0, cb.tKeep := sKeepidle } p.hdr.pseq).cb.sndWnd =
      s.cb.sndWnd := by
    unfold updateRtt
    split
    · obtain ⟨_, _, _, result⟩ := xmitTimer_eq { s with
        cb.pseq := p.hdr.seq, cb.idle := 0, cb.tKeep := sKeepidle } s.cb.rtt
      rw [result]
    · rfl
  generalize updateRtt
    { s with cb.pseq := p.hdr.seq, cb.idle := 0, cb.tKeep := sKeepidle } p.hdr.pseq = x
    at timed wnd ⊢
  have view : x.view = s.view := timed
  have state : x.cb.state = s.cb.state := congrArg (fun v : View => v.state) view
  have una : x.cb.sndUna = s.cb.sndUna := congrArg (fun v : View => v.sndUna) view
  rw [← admits_of_view view]
  have quiet : ∀ y : Endpoint, y.cb.state = x.cb.state → y.cb.sndUna = x.cb.sndUna →
      y.cb.sndWnd = x.cb.sndWnd → Shown p.hdr s y ∧ (x.admits p.hdr = false → Still s y) := by
    intro y state' una' wnd'
    have calm : Still s y := .of_eq (state'.trans state) (una'.trans una) (wnd'.trans wnd)
    exact ⟨calm.shown, fun _ => calm⟩
  by_cases closed : x.cb.state = .closed
  · rw [if_pos closed]
    split
    · exact quiet _ rfl rfl rfl
    · exact quiet _ rfl rfl rfl
  rw [if_neg closed]
  by_cases rst : hasRst p.hdr.flags = true
  · rw [if_pos rst]
    exact quiet _ rfl rfl rfl
  rw [if_neg rst, dropOutOfRcvWndPacket_eq]
  by_cases out : x.withRcvWnd.outOfRcvWnd p.hdr = true
  · rw [if_pos out]
    exact quiet _ rfl rfl rfl
  rw [if_neg out]
  have admitted : x.admits p.hdr = true := by
    rw [admits_iff]
    exact ⟨closed, by simpa using rst, by simpa using out⟩
  refine ⟨?_, fun refused => absurd admitted (by rw [refused]; simp)⟩
  refine Shown.of_eq (t := x.withRcvWnd) state una wnd ?_
  dsimp only
  generalize x.withRcvWnd = w
  have fast := w.doHeaderPrediction_shown p
  have missed := (w.doHeaderPrediction_blocks (p := p)).2
  generalize w.doHeaderPrediction p = result at fast missed ⊢
  obtain ⟨_ | _, y⟩ := result
  case true => exact fast
  case false =>
    obtain rfl : y = w := missed rfl
    dsimp only
    split
    · next isSyn => exact y.syn_shown p isSyn
    · exact y.inputSegment_shown p

end Packet

/-- What an event other than a packet does to the view. -/
theorem step_keeps_view {s : Endpoint} {e : Event} (own : ∀ hdr mem n, e ≠ .packet hdr mem n) :
    Still s (s.step e) := by
  refine path_still (s.step_blocks e) fun _ a tag => ?_
  cases e with
  | packet hdr mem n => exact absurd rfl (own hdr mem n)
  | slowTimo | delayTimer => rcases tag with rfl | rfl | rfl <;> exact id
  | connect | fastTimo | send | receive | shutdown | close => rcases tag with rfl | rfl <;> exact id
  | receiveError => rcases tag with rfl | rfl | rfl | rfl <;> exact id
  | accept | mtu | setKeepalive | setSndBuf | setRcvBuf | cancel =>
      obtain rfl : a = _ := tag
      exact id

/-- A packet that is not intact or not admitted leaves the view as it is. -/
theorem packet_shown (s : Endpoint) (hdr : UdtHdr) (mem : List UChar) (n : Nat) :
    Shown hdr.ntoh s (s.step (.packet hdr mem n)) ∧
      (¬ (intact hdr n ∧ s.admits hdr.ntoh = true) → Still s (s.step (.packet hdr mem n))) := by
  have late : ∀ {x y : Endpoint}, BlockPath Tag.Late x y → Still x y := fun path =>
    path_still path fun _ _ late => by rcases late with rfl | rfl | rfl <;> exact id
  change Shown hdr.ntoh s (s.handleReceive hdr mem n) ∧
    (_ → Still s (s.handleReceive hdr mem n))
  rcases s.handleReceive_blocks hdr mem n with unread | ⟨buffer, _, _, good, _, path⟩
  · exact ⟨(late unread).shown, fun _ => late unread⟩
  · obtain ⟨shown, refused⟩ := s.inputChecked_shown (hostPacket hdr mem buffer)
    have after := (late (inner_late (commitOutput_blocks
      (s.inputChecked (hostPacket hdr mem buffer))))).trans (late path)
    refine ⟨shown.calm after, fun bad => (refused ?_).trans after⟩
    by_contra admitted
    exact bad ⟨good, Bool.of_not_eq_false admitted⟩

end Endpoint

open Endpoint

/-- An advertisement of the receiver: its acknowledgement, counted without wrapping around, and
its window. -/
structure Advert where
  ack : Nat
  win : Half

namespace Advert

def edge (a : Advert) : Nat := a.ack + a.win.toNat

/-- The advertisements of a receiver in the order it sends them: neither its acknowledgement nor
its right edge goes back. -/
def Ordered (log : List Advert) : Prop := log.Pairwise fun a b => a.ack ≤ b.ack ∧ a.edge ≤ b.edge

/-- The segment carries this advertisement. -/
def On (a : Advert) (ti : UdtHdr) : Prop := ti.ack = BitVec.ofNat 32 a.ack ∧ ti.win = a.win

instance (a : Advert) (ti : UdtHdr) : Decidable (a.On ti) := inferInstanceAs (Decidable (_ ∧ _))

/-- The segment is not so old, and not so far ahead, that its number stands for another one. -/
def Near (a b : Advert) : Prop := b.ack ≤ a.ack + 2 ^ 31 ∧ a.ack < b.ack + 2 ^ 32

/-- Of two advertisements of one receiver the one that acknowledges more has the larger edge. -/
theorem Ordered.edge_le {log : List Advert} (ordered : Ordered log) {a b : Advert} (ha : a ∈ log)
    (hb : b ∈ log) (less : a.ack < b.ack) : a.edge ≤ b.edge := by
  induction log with
  | nil => cases ha
  | cons x log ih =>
      obtain ⟨first, rest⟩ := List.pairwise_cons.mp ordered
      rcases List.mem_cons.mp ha with rfl | earlier
      · rcases List.mem_cons.mp hb with rfl | later
        · exact absurd less (Nat.lt_irrefl _)
        · exact (first b later).2
      · rcases List.mem_cons.mp hb with rfl | later
        · exact absurd less (Nat.not_lt.mpr (first a earlier).1)
        · exact ih rest earlier later

/-- A near advertisement that does not look old is not old. -/
theorem Near.le {a b : Advert} (near : a.Near b)
    (fresh : ¬ seqLt (BitVec.ofNat 32 a.ack) (BitVec.ofNat 32 b.ack)) : b.ack ≤ a.ack := by
  obtain ⟨close, _⟩ := near
  rw [seqLt_iff, BitVec.toNat_sub, BitVec.toNat_ofNat, BitVec.toNat_ofNat] at fresh
  omega

end Advert

/-- One step of a sender: an event of its own, or the delivery of a segment of the receiver. -/
inductive Move where
  | own (e : Event)
  | deliver (a : Advert) (hdr : UdtHdr) (mem : List UChar) (bytesReceived : Nat)

/-- A sender, and the advertisement its view was last taken from. -/
structure Watched where
  sender : Endpoint
  inForce : Advert

def Watched.next (v : Watched) : Move → Watched
  | .own e => ⟨v.sender.step e, v.inForce⟩
  | .deliver a hdr mem n =>
      let t := v.sender.step (.packet hdr mem n)
      ⟨t, if v.sender.Opened ∧ t.cb.sndUna = v.sender.cb.sndUna ∧
        t.cb.sndWnd = v.sender.cb.sndWnd then v.inForce else a⟩

/-- Packets are segments the receiver has sent, in any order and any number of times. -/
def Move.Sent (log : List Advert) : Move → Prop
  | .own e => ∀ hdr mem n, e ≠ .packet hdr mem n
  | .deliver a hdr _ _ => a ∈ log ∧ (hasAck hdr.flags = true → a.On hdr.ntoh)

/-- No segment that `input` admits in an open state carries a smaller window for the same
acknowledgement, or a SYN with another window. -/
def Move.Fresh (v : Watched) : Move → Prop
  | .own _ => True
  | .deliver a hdr _ n =>
      v.sender.Opened → intact hdr n ∧ v.sender.admits hdr.ntoh = true →
        a.Near v.inForce ∧
        (hasAck hdr.flags = true → hdr.ntoh.ack = v.sender.cb.sndUna →
          v.sender.cb.sndWnd ≤ hdr.ntoh.win.setWidth 32) ∧
        (hasSyn hdr.flags = true → hdr.ntoh.win.setWidth 32 = v.sender.cb.sndWnd)

namespace Watched

variable {log : List Advert} {v : Watched} {m : Move}

/-- In an open state the view is an advertisement of the receiver. -/
def Shows (log : List Advert) (v : Watched) : Prop :=
  v.sender.Opened → v.inForce ∈ log ∧ v.sender.cb.sndUna = BitVec.ofNat 32 v.inForce.ack ∧
    v.sender.cb.sndWnd = v.inForce.win.setWidth 32

/-- A delivery that leaves the view as it is leaves its advertisement in force. -/
theorem deliver_kept {a : Advert} {hdr : UdtHdr} {mem : List UChar} {n : Nat}
    (same : v.sender.Opened ∧
      (v.sender.step (.packet hdr mem n)).cb.sndUna = v.sender.cb.sndUna ∧
      (v.sender.step (.packet hdr mem n)).cb.sndWnd = v.sender.cb.sndWnd) :
    v.next (.deliver a hdr mem n) = ⟨v.sender.step (.packet hdr mem n), v.inForce⟩ := by
  rw [next, if_pos same]

/-- An acknowledgement that is taken has an edge no smaller than that in force. -/
theorem edge_le_taken (ordered : Advert.Ordered log) (shows_ : v.Shows log) {a : Advert}
    {ti : UdtHdr} (logged : a ∈ log) (carried : a.On ti) (opened : v.sender.Opened)
    (near : a.Near v.inForce) (young : ¬ seqLt ti.ack v.sender.cb.sndUna)
    (wider : ti.ack = v.sender.cb.sndUna → v.sender.cb.sndWnd ≤ ti.win.setWidth 32) :
    v.inForce.edge ≤ a.edge := by
  obtain ⟨inLog, una, wnd⟩ := shows_ opened
  obtain ⟨ack, win⟩ := carried
  rw [ack, una] at young wider
  rcases Nat.lt_or_eq_of_le (near.le young) with less | equal
  · exact ordered.edge_le inLog logged less
  · have narrow := wider (by rw [equal])
    rw [wnd, win, BitVec.le_def, BitVec.toNat_setWidth, BitVec.toNat_setWidth] at narrow
    rw [Advert.edge, Advert.edge, equal]
    omega

/-- The step lemma: the view stays an advertisement, and its right edge does not go back. -/
theorem next_shows (ordered : Advert.Ordered log) (shows_ : v.Shows log) (sent : m.Sent log)
    (fresh : m.Fresh v) : (v.next m).Shows log ∧
      (v.sender.Opened → (v.next m).sender.Opened → v.inForce.edge ≤ (v.next m).inForce.edge) := by
  cases m with
  | own e =>
      have calm := step_keeps_view (s := v.sender) sent
      refine ⟨fun opened => ?_, fun _ _ => Nat.le_refl _⟩
      obtain ⟨before, una, wnd⟩ := calm opened
      obtain ⟨logged, una', wnd'⟩ := shows_ before
      exact ⟨logged, una.trans una', wnd.trans wnd'⟩
  | deliver a hdr mem n =>
      obtain ⟨logged, carries⟩ := sent
      obtain ⟨shown, refused⟩ := v.sender.packet_shown hdr mem n
      have result : (v.next (.deliver a hdr mem n)).sender =
        v.sender.step (.packet hdr mem n) := rfl
      -- a view that did not change is that of the advertisement in force
      have kept : v.sender.Opened ∧
          (v.sender.step (.packet hdr mem n)).cb.sndUna = v.sender.cb.sndUna ∧
          (v.sender.step (.packet hdr mem n)).cb.sndWnd = v.sender.cb.sndWnd →
          (v.next (.deliver a hdr mem n)).Shows log ∧
            v.inForce.edge ≤ (v.next (.deliver a hdr mem n)).inForce.edge := by
        intro same
        obtain ⟨inLog, una, wnd⟩ := shows_ same.1
        rw [deliver_kept same]
        exact ⟨fun _ => ⟨inLog, same.2.1.trans una, same.2.2.trans wnd⟩, Nat.le_refl _⟩
      by_cases opened : (v.sender.step (.packet hdr mem n)).Opened
      case neg => exact ⟨fun after => absurd after opened, fun _ after => absurd after opened⟩
      suffices both : (v.next (.deliver a hdr mem n)).Shows log ∧ (v.sender.Opened →
          v.inForce.edge ≤ (v.next (.deliver a hdr mem n)).inForce.edge) from
        ⟨both.1, fun before _ => both.2 before⟩
      by_cases reached : intact hdr n ∧ v.sender.admits hdr.ntoh = true
      case neg =>
        obtain ⟨shows', edge⟩ := kept (refused reached opened)
        exact ⟨shows', fun _ => edge⟩
      by_cases same : v.sender.Opened ∧
          (v.sender.step (.packet hdr mem n)).cb.sndUna = v.sender.cb.sndUna ∧
          (v.sender.step (.packet hdr mem n)).cb.sndWnd = v.sender.cb.sndWnd
      case pos =>
        obtain ⟨shows', edge⟩ := kept same
        exact ⟨shows', fun _ => edge⟩
      have moved : v.next (.deliver a hdr mem n) = ⟨v.sender.step (.packet hdr mem n), a⟩ := by
        rw [next, if_neg same]
      rcases shown opened with unchanged | ⟨isAck, una, wnd, young⟩ | ⟨before, isSyn, una, wnd⟩
      · exact absurd unchanged same
      · obtain ⟨ack, win⟩ := carries isAck
        rw [moved]
        refine ⟨fun _ => ⟨logged, una.trans ack, ?_⟩, fun before => ?_⟩
        · rw [wnd, win]
        · obtain ⟨near, wider, _⟩ := fresh before reached
          exact edge_le_taken ordered shows_ logged ⟨ack, win⟩ before near (young before)
            (wider isAck)
      · obtain ⟨_, _, alike⟩ := fresh before reached
        exact absurd ⟨before, una, wnd.trans (alike isSyn)⟩ same

theorem run_shows (ordered : Advert.Ordered log) {ms : List Move} (sent : ∀ m ∈ ms, m.Sent log)
    (shows_ : v.Shows log) (fresh : Trace.Meets next (fun v m => m.Fresh v) v ms) :
    (ms.foldl next v).Shows log := by
  induction ms generalizing v with
  | nil => exact shows_
  | cons m ms ih =>
      obtain ⟨first, rest⟩ := List.forall_mem_cons.mp sent
      exact ih rest (next_shows ordered shows_ first fresh.1).1 fresh.2

/-- Whatever the order in which the segments of a receiver arrive: as long as none that is
admitted is stale, the view of an open sender is an advertisement of the receiver, and the right
edge of that advertisement never decreases. -/
theorem window_edge_monotone (fack sndSeq rcvSeq : Word) (env : Env) (g : Advert)
    (log : List Advert) (ordered : Advert.Ordered log) (ms : List Move) (m : Move)
    (sent : ∀ x ∈ ms ++ [m], x.Sent log)
    (fresh : Trace.Meets next (fun v m => m.Fresh v) ⟨init fack sndSeq rcvSeq env, g⟩ ms)
    (last : m.Fresh (ms.foldl next ⟨init fack sndSeq rcvSeq env, g⟩)) :
    let v := ms.foldl next ⟨init fack sndSeq rcvSeq env, g⟩
    let w := v.next m
    (w.sender.Opened → w.inForce ∈ log ∧ w.sender.cb.sndUna = BitVec.ofNat 32 w.inForce.ack ∧
        w.sender.cb.sndWnd = w.inForce.win.setWidth 32) ∧
      (v.sender.Opened → w.sender.Opened → v.inForce.edge ≤ w.inForce.edge) := by
  have start : Shows log ⟨init fack sndSeq rcvSeq env, g⟩ := by
    intro opened
    simp [Opened, init, UdtCb.init, TcpState.value] at opened
  have before := run_shows ordered (fun x member => sent x (List.mem_append_left _ member)) start fresh
  exact next_shows ordered before (sent m (by simp)) last

/-- A segment with nothing but an acknowledgement and a window. -/
def bareAck (a : Advert) : Move :=
  .deliver a (UdtHdr.mk 0 UdtHdr.TH_ACK a.win 0 20 101 (BitVec.ofNat 32 a.ack) 0).hton [] 20

/-- An active open, answered with a window of 1000 bytes. -/
def opening : List Move :=
  [.own (.connect 0), .deliver ⟨1, 1000⟩
    (UdtHdr.mk 0 (UdtHdr.TH_SYN ||| UdtHdr.TH_ACK) 1000 0 20 100 1 0).hton [] 20]

theorem window_edge_monotone_update :
    let w := (opening.foldl next ⟨init 0 0 0 Env.zero, ⟨0, 0⟩⟩).next (bareAck ⟨1, 2000⟩)
    w.sender.cb.sndWnd = w.inForce.win.setWidth 32 ∧ 1001 ≤ w.inForce.edge := by
  intro w
  have ordered : Advert.Ordered [⟨1, 1000⟩, ⟨1, 2000⟩] := by
    simp [Advert.Ordered, Advert.edge]
  have sent : ∀ x ∈ opening ++ [bareAck ⟨1, 2000⟩], x.Sent [⟨1, 1000⟩, ⟨1, 2000⟩] := by
    simp [opening, bareAck, Move.Sent, Advert.On]
  have both := window_edge_monotone 0 0 0 Env.zero ⟨0, 0⟩ [⟨1, 1000⟩, ⟨1, 2000⟩] ordered opening
    (bareAck ⟨1, 2000⟩) sent
    ⟨trivial, fun opened => absurd opened (by decide +kernel), trivial⟩
    fun _ _ => ⟨⟨by decide +kernel, by decide +kernel⟩, by decide +kernel, by decide +kernel⟩
  have opened : w.sender.Opened := by decide +kernel
  refine ⟨(both.1 opened).2.2, ?_⟩
  exact both.2 (by decide +kernel) opened

/-- A stale segment overwrites a newer window for the same acknowledgement. -/
theorem stale_window_overwrites :
    let log : List Advert := [⟨1, 1000⟩, ⟨1, 2000⟩]
    let v := (opening ++ [bareAck ⟨1, 2000⟩]).foldl next ⟨init 0 0 0 Env.zero, ⟨0, 0⟩⟩
    let w := v.next (bareAck ⟨1, 1000⟩)
    Advert.Ordered log ∧ (∀ x ∈ opening ++ [bareAck ⟨1, 2000⟩, bareAck ⟨1, 1000⟩], x.Sent log) ∧
      v.sender.Opened ∧ w.sender.Opened ∧ w.sender.cb.sndUna = v.sender.cb.sndUna ∧
      w.sender.cb.sndWnd < v.sender.cb.sndWnd := by
  refine ⟨by simp [Advert.Ordered, Advert.edge], ?_, by decide +kernel, by decide +kernel,
    by decide +kernel, by decide +kernel⟩
  simp [opening, bareAck, Move.Sent, Advert.On]

end Watched
end UdtBoost
