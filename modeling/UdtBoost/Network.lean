import UdtBoost.Custody
import UdtBoost.Delivery
import UdtBoost.Duplex

/-! Two endpoints and a network between them that loses, repeats, delays and reorders their datagrams
as it likes, and adds none of its own. -/
namespace UdtBoost

/-- What a packet tells that comes from the peer. -/
structure UdtPacket.Heard (p : UdtPacket) (u : View) : Prop where
  genuine : p.Genuine (streamOf u.posted) u.outgoing.Over
  counted : p.counted.Genuine (streamOf u.posted) u.outgoing.Over
  alike : p.Alike p.counted
  walked : p.Walked p.options.2
  syn : hasSyn p.hdr.flags = true → p.hdr.seq = 0
  ack : hasAck p.hdr.flags = true →
    Reached p.hdr.ack u.rcvNxt ∧ (hasSyn p.hdr.flags = false → u.connected = true)
  said : hasAck p.hdr.flags = true → u.Acknowledges p.hdr.ack
  blocks : ∀ b ∈ p.options.1, u.Reports b
  parcel : 1 + u.last < 2 ^ 31 → Endpoint.needsReass p.counted.hdr → u.Parcel p.counted

namespace Endpoint

variable {s : Endpoint} {p : UdtPacket} {u : View} {fins : Nat}

/-- The SYN is numbered 0, and comes before anything is received. -/
theorem syn_answers (heard : p.Heard u) (alive : s.sk.nextLayer = true)
    (admitted : s.admits p.hdr = true) (isSyn : hasSyn p.hdr.flags = true) :
    Honours p u s.view (.syn p) := by
  have first := heard.syn isSyn
  obtain ⟨_, _, inside⟩ := (s.admits_iff p.hdr).mp admitted
  refine ⟨⟨⟨alive, first, ?_⟩, trivial, trivial⟩, fun _ => first, trivial, trivial⟩
  unfold Conn.outOfRcvWnd at inside
  dsimp only at inside
  rw [if_pos isSyn, first, Bool.or_eq_false_iff, decide_eq_false_iff_not, not_lt] at inside
  have same : s.withRcvWnd.cb.rcvNxt - 0 - 1 = s.cb.rcvNxt - 1 := congrArg (· - 1) (BitVec.sub_zero _)
  rw [same] at inside
  exact inside.1

theorem store_answers (heard : p.Heard u) (alive : s.sk.nextLayer = true)
    (needs : needsReass p.counted.hdr) : Honours p u s.view (.store p.counted) :=
  ⟨⟨⟨alive, heard.counted, heard.alike⟩, trivial, trivial⟩, fun short => heard.parcel short needs,
    trivial, trivial⟩

/-- An acknowledgement of everything that was sent acknowledges the FIN too. -/
theorem ackAll_shuts (heard : p.Heard u) (alive : s.sk.nextLayer = true)
    (isAck : hasAck p.hdr.flags = true) (order : s.InOrder) (k : Tied u fins s.view)
    (all : s.cb.sndMax = p.hdr.ack) : Shuts u s.view (.ackAll p.counted) := by
  intro short sentfin closing
  obtain ⟨past, late⟩ : ¬ (s.cb.state = .closed ∨ s.cb.state.inHandshake) ∧ s.cb.state.finishing := by
    rcases closing with state | state | state <;>
      exact (congrArg (fun q : TcpState => ¬ (q = .closed ∨ q.inHandshake) ∧ q.finishing) state).mpr (by decide)
  have open_ : s.connected = true := by
    by_contra unopened
    exact past (k.paired.feeding.idle (Bool.eq_false_iff.mpr unopened)).1
  obtain ⟨top, sent, _⟩ := ((order.numbered alive).1 open_).laid.fin sentfin
  have seq : s.sk.sndBuf.seq = 1 + BitVec.ofNat 32 s.view.last := k.paired.feeding.seq open_
  have max : s.cb.sndMax.toNat = 2 + s.view.last := by
    have top : s.cb.sndMax = s.sk.sndBuf.seq + if s.cb.flags.sentfin then 1 else 0 := top
    have sentfin : s.cb.flags.sentfin = true := sentfin
    rw [top, sentfin, if_pos rfl, seq, BitVec.toNat_add, BitVec.toNat_add, BitVec.toNat_ofNat]
    change ((1 + s.view.last % 2 ^ 32) % 2 ^ 32 + 1) % 2 ^ 32 = _
    omega
  obtain ⟨some_, some', order'⟩ := (heard.ack isAck).1
  refine ⟨⟨open_, late, sent⟩, ?_⟩
  rw [← all] at some_ order'
  bv_omega

/-- What `handle_ack` does with an acknowledgement of the peer. -/
theorem ack_answers (heard : p.Heard u) (alive : s.sk.nextLayer = true)
    (isAck : hasAck p.hdr.flags = true) (order : s.InOrder) (k : Tied u fins s.view)
    (greeted : s.cb.state = .synSent → s.cb.rcvNxt ≠ 0) : AckOk (Honours p u) s p.counted := by
  obtain ⟨ack, _, options, buffer⟩ := p.counted_same
  have reached := (heard.ack isAck).1
  have free : ∀ {v : View} {a : Act}, Answers p (streamOf u.posted) u.outgoing.Over u.rcvNxt v a →
      (1 + u.last < 2 ^ 31 → Receives u a) → Said u a → Shuts u v a → Honours p u v a :=
    fun answers receives said shuts => ⟨answers, receives, said, shuts⟩
  refine
    { free := fun _ _ => free ⟨trivial, trivial, trivial⟩ (fun _ => trivial) trivial trivial
      ackAll := fun all => free ⟨trivial, trivial, fun received => ?_, greeted⟩ (fun _ => trivial) trivial
        (ackAll_shuts heard alive isAck order k (all.trans ack))
      ack := fun _ => free ⟨trivial, trivial, ?_⟩ (fun _ => trivial) ?_ trivial
      sack := fun _ b member => free ⟨trivial, trivial, trivial⟩ (fun _ => trivial) ?_ trivial
      rewrite := fun _ => free ⟨⟨buffer, ?_⟩, trivial, trivial⟩ (fun _ => trivial) trivial trivial
      restore := fun _ _ _ _ _ => free ⟨trivial, trivial, trivial⟩ (fun _ => trivial) trivial trivial }
  · refine ⟨?_, reached.2.1⟩
    have unopened : s.connected = false := Bool.eq_false_iff.mpr fun open_ =>
      k.paired.feeding.past open_ (.inr (.inr received))
    have opening := (order.numbered alive).2 unopened
    have last : s.cb.sndNxt = s.cb.sndMax := (opening.spoken (.inr received)).1
    have low : s.cb.sndMax.toNat ≤ 1 := opening.fresh.max
    have some_ : s.cb.sndMax ≠ 0 := by
      rw [all, ack]
      exact reached.1
    change s.cb.sndNxt = 1
    rw [last]
    bv_omega
  · change Reached p.counted.hdr.ack u.rcvNxt
    rw [ack]
    exact reached
  · change u.Acknowledges p.counted.hdr.ack
    rw [ack]
    exact heard.said isAck
  · rw [options] at member
    exact heard.blocks b member
  · rw [options]
    exact heard.walked

theorem fin_member {b : UdtBuf} (last : b.fin = true) : ∃ q ∈ b.pkts, hasFin q.hdr.flags = true := by
  unfold UdtBuf.fin at last
  split at last
  · next q found => exact ⟨q, List.mem_of_getLast? found, last⟩
  · contradiction

/-- While an acknowledgement is handled the socket stays open, and the FIN in `rcv_buf`. -/
theorem handleAck_keeps (q : UdtPacket) (goes : (s.handleAck q).1 = false)
    (alive : s.sk.nextLayer = true) (last : s.sk.rcvBuf.fin = true) :
    (s.handleAck q).2.sk.nextLayer = true ∧
      ∃ r ∈ (s.handleAck q).2.sk.rcvBuf.pkts, hasFin r.hdr.flags = true := by
  refine (s.handleAck_quiet q goes).invariant
    (I := fun v => v.nextLayer = true ∧ ∃ r ∈ v.rcvBuf.pkts, hasFin r.hdr.flags = true)
    ⟨alive, fin_member last⟩ ?_
  rintro v a w ⟨alive, r, member, fin⟩ steps step
  rcases steps with rfl | rfl | ⟨block, rfl⟩ | rfl
  · cases step with
    | ackAll => exact ⟨alive, r, member, fin⟩
  · cases step with
    | ack => exact ⟨alive, r, member, fin⟩
  · cases step with
    | sack => exact ⟨alive, r, member, fin⟩
  · cases step with
    | rewrite =>
        refine ⟨alive, _, List.mem_map.mpr ⟨r, member, rfl⟩, ?_⟩
        split <;> exact fin

/-- The FIN that is handled is one that the peer sent. -/
theorem handleFin_tied (k : Tied u fins s.view) (alive : s.sk.nextLayer = true)
    (more : (streamOf u.posted).length + (fins + 1) < 2 ^ 31)
    (last : ∃ r ∈ s.sk.rcvBuf.pkts, hasFin r.hdr.flags = true) :
    Tied u (fins + 1) s.handleFin.view ∧ Advances s.cb.rcvNxt s.handleFin.cb.rcvNxt := by
  obtain ⟨r, member, fin⟩ := last
  have step : Step s.view .fin s.handleFin.view := by
    rw [handleFin_view]
    exact Step.fin (v := s.view)
  exact k.fin alive more member fin step

/-- From `TCP_REASS` on. -/
theorem inputSegment_tied (heard : p.Heard u)
    (alive : s.sk.nextLayer = true) (order : s.InOrder)
    (k : Tied u fins s.view) (holds : s.view.incoming.Holds p)
    (greeted : hasAck p.hdr.flags = true → s.cb.state = .synSent → s.cb.rcvNxt ≠ 0)
    (more : (streamOf u.posted).length + (fins + 1) < 2 ^ 31) :
    Tied u (fins + 1) (s.inputSegment p.counted).view ∧
      Advances s.cb.rcvNxt (s.inputSegment p.counted).cb.rcvNxt := by
  have flags : p.counted.hdr.flags = p.hdr.flags := (p.counted_same).2.1
  have stores : ViewPath (Honours p u) s.view (s.stored p.counted).view :=
    s.stored_path p.counted (store_answers heard alive)
  obtain ⟨k₁, holds₁, later₁⟩ := k.path holds stores
  obtain ⟨_, _, _, _, _, _, result⟩ := s.stored_eq p.counted
  have state : (s.stored p.counted).cb.state = s.cb.state := by rw [result]
  have alive₁ : (s.stored p.counted).sk.nextLayer = true := by
    rw [result]
    exact alive
  have order₁ : (s.stored p.counted).InOrder := by
    rw [result]
    exact order.same rfl rfl rfl
  clear result
  rw [inputSegment_eq, flags]
  generalize s.stored p.counted = x at k₁ holds₁ later₁ state alive₁ order₁ ⊢
  change Advances s.cb.rcvNxt x.cb.rcvNxt at later₁
  split
  · next isAck =>
      have acks := x.handleAck_path p.counted (ack_answers heard alive₁ isAck order₁ k₁ fun sent =>
        (later₁ (greeted isAck (state.symm.trans sent))).2.1)
      obtain ⟨k₂, _, later₂⟩ := k₁.path holds₁ acks
      split
      · next fin =>
          obtain ⟨alive₂, last⟩ := handleAck_keeps p.counted fin.1 alive₁ fin.2
          generalize (x.handleAck p.counted).2 = y at k₂ later₂ alive₂ last ⊢
          obtain ⟨k₃, later₃⟩ := handleFin_tied k₂ alive₂ more last
          exact ⟨k₃, (later₁.trans later₂).trans later₃⟩
      · exact ⟨k₂.fewer more, later₁.trans later₂⟩
  · split
    · next fin =>
        obtain ⟨k₂, later₂⟩ := handleFin_tied k₁ alive₁ more (fin_member fin)
        exact ⟨k₂, later₁.trans later₂⟩
    · exact ⟨k₁.fewer more, later₁⟩

/-- Nothing that had a SYN is still waiting for one. -/
theorem synced_state (s : Endpoint) (isSyn : hasSyn p.hdr.flags = true) :
    (s.synced p).cb.state ≠ .synSent := by
  have view := congrArg (fun v : View => v.state) ((s.entered p).handleSyn_view p)
  rw [Endpoint.synced, if_pos isSyn]
  intro sent
  have state : ((s.entered p).handleSyn p).2.2.view.state = .synSent := sent
  rw [view] at state
  split at state
  · contradiction
  · next other => exact other (.inr (.inl state))

/-- A packet of the peer, on whatever way through `input`. -/
theorem inputChecked_tied (heard : p.Heard u)
    (alive : s.sk.nextLayer = true) (order : s.InOrder)
    (k : Tied u fins s.view) (holds : s.view.incoming.Holds p)
    (greeted : u.connected = true → s.cb.rcvNxt ≠ 0) (more : (streamOf u.posted).length + (fins + 1) < 2 ^ 31) :
    Tied u (fins + 1) (s.inputChecked p).view ∧
      Advances s.cb.rcvNxt (s.inputChecked p).cb.rcvNxt := by
  have free : ∀ v, Honours p u v .tau :=
    fun v => ⟨⟨trivial, trivial, trivial⟩, fun _ => trivial, trivial, trivial⟩
  have through : ∀ x : Endpoint, ViewPath (Honours p u) s.view x.view →
      Tied u (fins + 1) x.view ∧ Advances s.cb.rcvNxt x.cb.rcvNxt := by
    intro x path
    obtain ⟨k', _, later⟩ := k.path holds path
    exact ⟨k'.fewer more, later⟩
  have fast : s.admits p.hdr = true → ((s.entered p).doHeaderPrediction p).1 = true →
      Tied u (fins + 1) (s.inputChecked p).view ∧
        Advances s.cb.rcvNxt (s.inputChecked p).cb.rcvNxt := by
    intro admitted taken
    refine through _ ?_
    rw [inputChecked_fast admitted taken, ← s.entered_view p]
    refine ((s.entered p).doHeaderPrediction_path p free
      (fun isAck => ⟨⟨trivial, trivial, (heard.ack isAck).1⟩, fun _ => trivial, heard.said isAck, trivial⟩)
      fun noSyn _ len => ⟨⟨⟨?_, heard.genuine, Nat.le_refl _, rfl, rfl⟩, trivial, trivial⟩,
        fun short => ?_, trivial, trivial⟩).1
    · rw [s.entered_view p]
      exact alive
    · have plain : p.counted = p := by
        rw [UdtPacket.counted, if_neg (by simp [noSyn])]
      have parcel := heard.parcel short
      rw [plain] at parcel
      exact parcel (.inl len)
  have synced : s.admits p.hdr = true →
      ViewPath (Honours p u) s.view (s.synced p).view := by
    intro admitted
    by_cases isSyn : hasSyn p.hdr.flags = true
    · rcases s.synced_step p with view | step
      · rw [view]
        exact .refl _
      · exact .single (syn_answers heard alive admitted isSyn) step
    · rw [Endpoint.synced, if_neg isSyn, s.entered_view p]
      exact .refl _
  have outcome := s.inputChecked_outcome p
  generalize result : s.inputChecked p = x at fast outcome ⊢
  cases outcome with
  | ignored =>
      have view := s.timed_view p
      generalize s.timed p = y at view ⊢
      exact through y (view ▸ .refl _)
  | hangup =>
      have view := s.timed_view p
      generalize s.timed p = y at view ⊢
      refine through _ ?_
      rw [← view]
      exact .single (free _) (Step.error (v := y.view))
  | outside =>
      have view := s.entered_view p
      generalize s.entered p = y at view ⊢
      refine through _ ?_
      rw [← view]
      exact .refl _
  | ackPredicted admitted _ _ _ _ _ taken => exact fast admitted taken
  | storePredicted admitted _ _ _ taken => exact fast admitted taken
  | synRefused admitted => exact through _ (synced admitted)
  | segment admitted =>
      have greeted' : hasAck p.hdr.flags = true → (s.synced p).cb.state = .synSent →
          (s.synced p).cb.rcvNxt ≠ 0 := by
        intro isAck sent
        cases isSyn : hasSyn p.hdr.flags with
        | true => exact absurd sent (s.synced_state isSyn)
        | false =>
            have same : (s.synced p).cb.rcvNxt = s.cb.rcvNxt := by
              rw [Endpoint.synced, if_neg (by simp [isSyn])]
              exact congrArg (fun v : View => v.rcvNxt) (s.entered_view p)
            rw [same]
            exact greeted ((heard.ack isAck).2 isSyn)
      obtain ⟨k₁, holds₁, later₁⟩ := k.path holds (synced admitted)
      obtain ⟨order₁, alive₁⟩ := synced_inOrder order alive p
      change Advances s.cb.rcvNxt (s.synced p).cb.rcvNxt at later₁
      generalize s.synced p = y at k₁ holds₁ later₁ order₁ alive₁ greeted' ⊢
      obtain ⟨k₂, later₂⟩ := inputSegment_tied heard alive₁ order₁ k₁ holds₁ greeted' more
      exact ⟨k₂, later₁.trans later₂⟩

end Endpoint

/-- What happens without a packet needs no buffer to be looked at. -/
theorem Incoming.exists_holds (x : Incoming) : ∃ p, x.Holds p := by
  obtain ⟨buffer, unused⟩ :=
    Infinite.exists_notMem_finset ((x.pkts ++ x.waiting).map (·.buffer)).toFinset
  refine ⟨⟨⟨0, 0, 0, 0, 0, 0, 0, 0⟩, [], buffer⟩, fun q member same => ?_⟩
  exact absurd (List.mem_toFinset.mpr (List.mem_map.mpr ⟨q, member, same⟩)) unused

/-- Steps of the user and the timers. -/
def OwnSteps (v : View) (a : Act) : Prop := a.Local ∧ SendsInTime v a

theorem Tied.own {u v w : View} {fins : Nat} (k : Tied u fins v) (path : ViewPath OwnSteps v w) :
    Tied u fins w ∧ Advances v.rcvNxt w.rcvNxt := by
  obtain ⟨p, holds⟩ := v.incoming.exists_holds
  have honours : ViewPath (Honours p u) v w := by
    refine path.mono fun x a ⟨here, legal⟩ => ?_
    cases a <;> first
      | exact ⟨⟨trivial, legal, trivial⟩, fun _ => trivial, trivial, trivial⟩
      | exact absurd here not_false
  obtain ⟨k', _, later⟩ := k.path holds honours
  exact ⟨k', later⟩

namespace Endpoint

variable {x y : Endpoint} {e : Event} {p : UdtPacket} {n : Nat}

/-- Where no packet is processed, what happens is up to the user and the timers. -/
theorem own_steps (proper : x.Proper e) (quiet : x.arriving e = none) :
    ViewPath OwnSteps x.view (x.step e).view := by
  have tau : ∀ v, OwnSteps v .tau := fun v => ⟨trivial, trivial⟩
  by_cases down : x.sk.nextLayer = false ∧ ∃ h, e = .connect h ∨ e = .accept h
  · obtain ⟨down, h, rfl | rfl⟩ := down
    · rw [step, asyncConnect, if_neg (by simp [down])]
      exact .refl _
    · rw [step, asyncAccept, if_neg (by simp [down])]
      exact .refl _
  have alive : ∀ h, e = .connect h ∨ e = .accept h → x.sk.nextLayer = true := by
    intro h begins
    by_contra shut
    exact down ⟨Bool.eq_false_iff.mpr shut, h, begins⟩
  have ok := proper.eventOk alive
  cases e with
  | packet hdr mem n =>
      rw [step]
      rcases x.handleReceive_cases hdr mem n with (same | same) | ⟨buffer, alive, pending, good, _⟩
      · rw [same]
        exact .refl _
      · rw [same]
        exact x.doReceive_path.of_tau tau
      · simp [arriving, alive, pending, good] at quiet
  | connect h => exact x.step_path (.connect h) tau ⟨trivial, ok⟩
  | accept h => exact x.step_path (.accept h) tau ⟨trivial, ok⟩
  | send op => exact x.step_path (.send op) tau ⟨trivial, ok⟩
  | shutdown h => exact x.step_path (.shutdown h) tau ⟨trivial, ok⟩
  | setSndBuf v => exact x.step_path (.setSndBuf v) tau ⟨trivial, ok⟩
  | setRcvBuf v => exact x.step_path (.setRcvBuf v) tau ⟨trivial, ok⟩
  | slowTimo => exact x.step_path .slowTimo tau fun v on => ⟨trivial, ok v on⟩
  | close => exact x.step_path .close tau fun v => ⟨trivial, ok v⟩
  | fastTimo => exact x.step_path .fastTimo tau trivial
  | receive op => exact x.step_path (.receive op) tau trivial
  | delayTimer aborted => exact x.step_path (.delayTimer aborted) tau trivial
  | receiveError value => exact x.step_path (.receiveError value) tau trivial
  | mtu => exact x.step_path .mtu tau trivial
  | setKeepalive on => exact x.step_path (.setKeepalive on) tau trivial
  | cancel => exact x.step_path .cancel tau trivial

/-- A datagram that reaches an endpoint was sent by the peer, whenever that was. -/
def Delivers (y : Endpoint) : Event → Prop
  | .packet hdr mem n => ∃ w ∈ y.wire, w.Fills hdr mem n
  | _ => True

instance (y : Endpoint) : (e : Event) → Decidable (y.Delivers e)
  | .packet hdr mem n => inferInstanceAs (Decidable (∃ w ∈ y.wire, w.Fills hdr mem n))
  | .connect _ | .accept _ | .send _ | .slowTimo | .fastTimo | .receive _ | .shutdown _
  | .delayTimer _ | .receiveError _ | .mtu | .setKeepalive _ | .setSndBuf _ | .setRcvBuf _ | .cancel
  | .close => .isTrue trivial

/-- What an endpoint does, and what the network brings to it. -/
def Honest (x y : Endpoint) (e : Event) : Prop := x.Proper e ∧ y.Delivers e

instance (x y : Endpoint) (e : Event) : Decidable (x.Honest y e) :=
  inferInstanceAs (Decidable (_ ∧ _))

/-- What holds of an endpoint and its peer after `n` steps of both. -/
structure Link (n : Nat) (x y : Endpoint) : Prop where
  order : x.InOrder
  logged : x.view.Logged
  calm : x.Calm
  owned : x.view.Owned
  tied : Tied y.view n x.view
  spoken : ∀ w ∈ x.wire, hasAck w.hdr.flags = true →
    Reached w.hdr.ntoh.ack x.cb.rcvNxt ∧ (hasSyn w.hdr.flags = false → x.connected = true)

namespace Link

/-- What the peer sent is true, however old it is. -/
theorem tells (link : Link n y x) {w : Datagram} (member : w ∈ y.wire) : w.Tells 1 y.stream ∧
    (hasFin w.hdr.flags = true → y.view.outgoing.Over) := by
  have fed := link.tied.paired.feeding
  rcases fed.wire w member with ⟨d, sent, rfl⟩ | bare
  · have placed := link.order.logged d sent
    refine ⟨fed.tells sent (link.logged.sent d sent).1 placed, fun fin => ?_⟩
    obtain ⟨open_, late, ends⟩ := fed.fin d sent fin
    exact ⟨open_, late, (ends placed).1⟩
  · refine ⟨bare.tells 1 _, fun fin => ?_⟩
    obtain ⟨hdr, rfl, _, _, flags | flags⟩ := bare
    · exact absurd (show hasFin hdr.flags = true from fin) (by rw [flags]; decide)
    · exact absurd (show hasFin hdr.flags = true from fin) (by rw [flags]; decide)

/-- The data of a segment lay in `snd_buf`; a SYN comes before the stream, and a FIN behind it. -/
theorem parcel (link : Link n y x) {hdr : UdtHdr} {mem : List UChar} {m : Nat} {w : Datagram}
    (member : w ∈ y.wire) (fills : w.Fills hdr mem m) (buffer : Nat) (short : 1 + y.view.last < 2 ^ 31)
    (needs : needsReass (hostPacket hdr mem buffer).counted.hdr) :
    y.view.Parcel (hostPacket hdr mem buffer).counted := by
  have custody := link.tied.given short
  obtain ⟨tells, -⟩ := link.tells member
  obtain ⟨rfl, -⟩ := fills
  have length : w.hdr.ntoh.len.toNat = w.payload.length := by
    have whole := tells.whole.2.2
    have off := tells.off
    rw [Datagram.payload, List.length_drop]
    omega
  -- an empty packet only has to be numbered within the stream
  have empty : ∀ q : UdtPacket, q.hdr.len.toNat = 0 → 1 ≤ q.hdr.seq.toNat →
      q.hdr.seq.toNat ≤ 1 + y.view.last → y.view.Parcel q := by
    intro q none first last
    rw [← q.place_zero] at first last
    refine ⟨first, ?_, fun r _ => .inl none⟩
    change q.place 0 + q.hdr.len.toNat ≤ _
    rw [none]
    exact last
  by_cases isSyn : hasSyn w.hdr.flags = true
  · have none : w.hdr.ntoh.len.toNat = 0 := by
      rw [length, (tells.syn isSyn).2.1]
      rfl
    have seq : (hostPacket w.hdr mem buffer).counted.hdr.seq = 1 := by
      rw [UdtPacket.counted, if_pos (show hasSyn (hostPacket w.hdr mem buffer).hdr.flags = true from isSyn)]
      change w.hdr.ntoh.seq + 1 = 1
      rw [(tells.syn isSyn).1]
      rfl
    refine empty _ ?_ (by rw [seq]; decide) (by rw [seq]; exact Nat.le_add_right 1 _)
    unfold UdtPacket.counted
    split <;> exact none
  · have plain : (hostPacket w.hdr mem buffer).counted = hostPacket w.hdr mem buffer := by
      rw [UdtPacket.counted, if_neg (show ¬ hasSyn (hostPacket w.hdr mem buffer).hdr.flags = true from isSyn)]
    rw [plain] at needs ⊢
    by_cases none : w.hdr.ntoh.len = 0
    · have fin : hasFin w.hdr.flags = true := by
        rcases needs with some_ | flags
        · exact absurd none some_
        · rw [hasFlag_or, Bool.or_eq_true] at flags
          exact flags.resolve_left isSyn
      have stop := tells.fin fin
      have stop : w.hdr.ntoh.seq.toNat = 1 + y.view.last := by
        rw [none] at stop
        have start : w.hdr.ntoh.seq = 1 + BitVec.ofNat 32 y.view.last := by
          rw [← BitVec.add_zero w.hdr.ntoh.seq]
          exact stop
        rw [start, BitVec.toNat_add, BitVec.toNat_ofNat]
        change (1 + y.view.last % 2 ^ 32) % 2 ^ 32 = _
        omega
      refine empty _ (congrArg BitVec.toNat none) ?_ (Nat.le_of_eq stop)
      exact stop ▸ Nat.le_add_right 1 _
    · have fed := link.tied.paired.feeding
      rcases fed.wire w member with ⟨d, sent, rfl⟩ | bare
      · obtain ⟨_, shook, _⟩ := fed.sent d sent
        obtain ⟨_, _, carried⟩ := (link.logged.sent d sent).1.carries (link.order.logged d sent) shook
        have here : (hostPacket d.dgram.hdr mem buffer).hdr = d.hdr := rfl
        rcases carried with ⟨zero, _⟩ | ⟨q, queued, r, same, seq, len, _⟩
        · exact absurd zero none
        · have seq : (hostPacket d.dgram.hdr mem buffer).place 0 = q.place 0 := by
            have alike : q.hdr.seq = r.hdr.seq := congrArg (fun q => q.hdr.seq) same
            rw [UdtPacket.place_zero, UdtPacket.place_zero, here, seq, alike]
          have len : (hostPacket d.dgram.hdr mem buffer).span = q.span := by
            have alike : q.hdr.len = r.hdr.len := congrArg (fun q => q.hdr.len) same
            unfold UdtPacket.span
            rw [here, len, alike]
          have some_ : q.span ≠ 0 := by
            rw [← len]
            exact fun zero => none (BitVec.eq_of_toNat_eq zero)
          exact (custody.queued q (.inr ⟨d, sent, queued⟩) some_).alike seq len
      · obtain ⟨hdr, rfl, zero, _⟩ := bare
        refine absurd ?_ none
        rw [← zero]
        exact congrArg UdtHdr.len (UdtHdr.ntoh_hton hdr)

theorem bare_off {w : Datagram} (bare : w.Bare) {hdr : UdtHdr} {mem : List UChar} {m : Nat}
    (fills : w.Fills hdr mem m) (buffer : Nat) : (hostPacket hdr mem buffer).hdr.off.toNat = UdtHdr.size := by
  obtain ⟨hdr', rfl, _, off, _⟩ := bare
  rw [hostPacket, fills.hdr, UdtHdr.ntoh_hton]
  exact off

/-- The blocks of a datagram were in the queue when it was sent. -/
theorem reports (link : Link n y x) {hdr : UdtHdr} {mem : List UChar} {m : Nat} {w : Datagram}
    (member : w ∈ y.wire) (fills : w.Fills hdr mem m) (buffer : Nat) :
    ∀ b ∈ (hostPacket hdr mem buffer).options.1, y.view.Reports b := by
  intro b named
  rcases link.tied.paired.feeding.wire w member with ⟨d, sent, rfl⟩ | bare
  · exact ⟨d, sent, (link.logged.sent d sent).1.blocks fills buffer named⟩
  · rw [UdtPacket.blocks_of_bare (bare_off bare fills buffer)] at named
    exact absurd named List.not_mem_nil

theorem heard (link : Link n y x) (delivers : y.Delivers e) (here : x.arriving e = some p) :
    p.Heard y.view := by
  obtain ⟨hdr, mem, m, buffer, rfl, _, _, _, rfl⟩ := arriving_inv here
  obtain ⟨w, member, fills⟩ := delivers
  obtain ⟨tells, over_⟩ := link.tells member
  obtain ⟨counted, alike⟩ := tells.counted_genuine over_ fills buffer
  have walked : (hostPacket hdr mem buffer).Walked (hostPacket hdr mem buffer).options.2 := by
    rcases link.tied.paired.feeding.wire w member with ⟨d, sent, rfl⟩ | bare
    · exact (link.logged.sent d sent).1.walked fills buffer
    · exact UdtPacket.walked_of_bare (bare_off bare fills buffer)
  have blocks := link.reports member fills buffer
  have genuine := tells.genuine over_ fills buffer
  have parcel := link.parcel member fills buffer
  have said := link.spoken w member
  obtain ⟨rfl, -⟩ := fills
  exact ⟨genuine, counted, alike, walked, fun syn => (tells.syn syn).1, said,
    fun isAck => .inr ⟨w, member, isAck, rfl⟩, blocks, parcel⟩

end Link

theorem step_tied (link : Link n x y) (back : Link n y x) (honest : x.Honest y e)
    (more : y.stream.length + (n + 1) < 2 ^ 31) :
    Tied y.view (n + 1) (x.step e).view ∧
      Advances x.cb.rcvNxt (x.step e).cb.rcvNxt := by
  cases here : x.arriving e with
  | none =>
      obtain ⟨k, later⟩ := link.tied.own (own_steps honest.1 here)
      exact ⟨k.fewer more, later⟩
  | some p =>
      have heard := back.heard honest.2 here
      obtain ⟨hdr, mem, m, buffer, _, alive, pending, _, packet⟩ := arriving_inv here
      have unused := copies_pending link.calm link.owned pending
      have holds : x.view.incoming.Holds p := by
        intro q member same
        rw [copies_eq, List.count_eq_zero] at unused
        refine absurd (List.mem_map.mpr ⟨q, member, ?_⟩) unused
        rw [same, packet]
        rfl
      obtain ⟨k, later⟩ :=
        inputChecked_tied heard alive link.order link.tied holds back.tied.paired.met more
      have rest := arriving_path here
      have own : ViewPath OwnSteps (x.inputChecked p).view (x.step e).view :=
        rest.of_tau fun v => ⟨trivial, trivial⟩
      obtain ⟨k', later'⟩ := k.own own
      exact ⟨k', later.trans later'⟩

/-- What is on the wire acknowledges what was received. -/
theorem step_spoken (link : Link n x y)
    (told : ∀ d ∈ (x.step e).sent, hasAck d.hdr.flags = true →
      Reached d.hdr.ack (x.step e).cb.rcvNxt ∧ (hasSyn d.hdr.flags = false → (x.step e).connected = true))
    (open_ : x.connected = true → (x.step e).connected = true)
    (later : Advances x.cb.rcvNxt (x.step e).cb.rcvNxt) :
    ∀ w ∈ (x.step e).wire, hasAck w.hdr.flags = true →
      Reached w.hdr.ntoh.ack (x.step e).cb.rcvNxt ∧
        (hasSyn w.hdr.flags = false → (x.step e).connected = true) := by
  intro w member isAck
  rcases x.step_wire e w member with old | ⟨d, sent, rfl⟩ | plain | ⟨opened, _, ack⟩
  · obtain ⟨reached, plain⟩ := link.spoken w old isAck
    exact ⟨reached.trans later, fun noSyn => open_ (plain noSyn)⟩
  · exact told d sent isAck
  · exact absurd (isAck.symm.trans plain) (by decide)
  · -- only an open connection probes its peer
    have shook : ∀ q : TcpState, TcpState.established.value ≤ q.value →
        q ≠ .closed ∧ ¬ q.inHandshake := by
      intro q
      cases q <;> decide
    obtain ⟨alive, past⟩ := shook _ opened
    have connected : x.connected = true := by
      by_contra unopened
      rcases (link.tied.paired.feeding.idle (Bool.eq_false_iff.mpr unopened)).1 with closed | handshake
      · exact alive closed
      · exact past handshake
    have some_ : x.cb.rcvNxt ≠ 0 := link.tied.paired.synced (.inr connected)
    rw [ack]
    exact ⟨later some_, fun _ => open_ connected⟩

/-- The stream only grows, and a connection that was open stays one that was. -/
theorem step_grows (x : Endpoint) (e : Event) : x.stream <+: (x.step e).stream ∧
    (x.connected = true → (x.step e).connected = true) := by
  have any : EventOk (fun _ _ => True) x e :=
    .of_all (fun _ _ _ _ => trivial) (fun _ _ _ => trivial) fun _ _ => trivial
  refine (x.step_path e (fun _ => trivial) any).invariant
    (I := fun v => x.stream <+: streamOf v.posted ∧ (x.connected = true → v.connected = true))
    ⟨List.prefix_refl _, id⟩ ?_
  intro v a w before _ step
  obtain ⟨more, open_⟩ := step.grows
  exact ⟨before.1.trans more, open_ ∘ before.2⟩

/-- A stream that is over stays as it is. -/
theorem step_over (proper : x.Proper e) (over_ : x.view.outgoing.Over) :
    (x.step e).view.outgoing.Over ∧ (x.step e).stream = x.stream := by
  refine proper.path.invariant (I := fun v => v.outgoing.Over ∧ streamOf v.posted = x.stream)
    ⟨over_, rfl⟩ ?_
  rintro v a w ⟨over_, same⟩ legal step
  obtain ⟨over_, next⟩ := step.over_stays legal over_
  exact ⟨over_, next.trans same⟩

/-- Fewer than half of the numbers are used for the stream, and for the steps that may count the FIN
once more. -/
def Brief (n : Nat) (x : Endpoint) : Prop := x.stream.length + n < 2 ^ 31

instance (n : Nat) (x : Endpoint) : Decidable (x.Brief n) := inferInstanceAs (Decidable (_ < _))

theorem linkRule : Duplex.Rule step Honest (fun n x => x.Brief n) Link where
  fewer n x brief := by
    unfold Brief at brief ⊢
    omega
  before n x e brief := by
    have grown := (x.step_grows e).1.length_le
    unfold Brief at brief ⊢
    omega
  own n x y e honest link back _ brief := by
    obtain ⟨tied, later⟩ := step_tied link back honest brief
    exact
      { order := step_inOrder link.order e honest.1.1
        logged := (run_invariant_restores [e] link.calm loggedRule link.logged).2
        calm := x.step_calm e link.calm
        owned := step_owned link.calm link.owned e
        tied
        spoken := step_spoken link tied.paired.told (x.step_grows e).2 later }
  peer n x y e honest link back brief other := by
    obtain ⟨tied, later⟩ := step_tied link back honest other
    have grown := (x.step_grows e).1
    exact
      { back with
        tied :=
          { paired := back.tied.paired.longer grown (step_over honest.1) (Nat.le_succ n) brief later
            taken := tied.given
            given := tied.taken
            ended := fun short after => by
              obtain ⟨over_, counted⟩ := back.tied.ended short after
              exact ⟨over_, counted.trans_le (Tied.toNat_le_of_advances later)⟩ } }

theorem init_custody (fack sndSeq rcvSeq fack' sndSeq' rcvSeq' : Word) (env env' : Env) :
    Custody (init fack sndSeq rcvSeq env).view (init fack' sndSeq' rcvSeq' env').view where
  queued q queued := by
    rcases queued with member | ⟨d, member, _⟩ <;> exact absurd member List.not_mem_nil
  waiting r member := absurd member List.not_mem_nil
  acks a said := by
    rcases said with rfl | ⟨w, member, _⟩
    · exact ⟨Nat.le_refl _, .inl (Nat.zero_le _), fun r member => absurd member List.not_mem_nil⟩
    · exact absurd member List.not_mem_nil
  blocks b := fun ⟨d, member, _⟩ => absurd member List.not_mem_nil
  covered _ _ m first last := absurd (first.trans last) (Nat.not_succ_le_zero 0)

theorem init_link (fack sndSeq rcvSeq fack' sndSeq' rcvSeq' : Word) (env env' : Env) :
    Link 0 (init fack sndSeq rcvSeq env) (init fack' sndSeq' rcvSeq' env') where
  order := init_inOrder fack sndSeq rcvSeq env
  logged := run_logged fack sndSeq rcvSeq env []
  calm := init_calm fack sndSeq rcvSeq env
  owned := init_owned fack sndSeq rcvSeq env
  tied :=
    { paired :=
        { drawing :=
            { short := (by decide : 0 + 0 < 2 ^ 31)
              taken := List.nil_prefix
              count := fun _ => .inl ⟨rfl, rfl⟩
              sound := fun q member => absurd member (List.not_mem_nil)
              fin := fun q member => absurd member (List.not_mem_nil)
              done := fun handled => by contradiction
              waiting := fun q member => absurd member (List.not_mem_nil) }
          feeding := init_feeding fack sndSeq rcvSeq 1 env
          synced := fun known => by
            rcases known with state | open_
            · exact absurd (.inl rfl) state
            · contradiction
          told := fun d member => absurd member (List.not_mem_nil)
          met := fun open_ => by contradiction
          acked := .inl rfl }
      taken := fun _ => init_custody _ _ _ _ _ _ _ _
      given := fun _ => init_custody _ _ _ _ _ _ _ _
      ended := fun _ after => absurd (show TcpState.finAcked .closed from after) (by decide) }
  spoken := fun w member => absurd member (List.not_mem_nil)

end Endpoint

end UdtBoost
