import UdtBoost.Assembly
import UdtBoost.Handshake
import UdtBoost.Replies
import UdtBoost.Stream

/-! An endpoint and its peer. What it received is a prefix of what the peer's user sent, and what it
knows to be acknowledged the peer has received. -/
namespace UdtBoost

/-- Whatever the user will ever send is in the stream. -/
def Outgoing.Over (x : Outgoing) : Prop :=
  x.connected = true ∧ x.state.finishing ∧ UdtBuf.opsLen x.ops = 0

instance (x : Outgoing) : Decidable x.Over := inferInstanceAs (Decidable (_ ∧ _ ∧ _))

section Steps

variable {v w : View} {a : Act}

theorem Step.grows (step : Step v a w) : streamOf v.posted <+: streamOf w.posted ∧
    (v.connected = true → w.connected = true) := by
  cases step with
  | transmit _ _ sends =>
      rw [sends.moved]
      exact ⟨List.prefix_refl _, id⟩
  | ackAll =>
      refine ⟨?_, fun open_ => by simp [open_]⟩
      rw [streamOf_append]
      exact List.prefix_append _ _
  | consume | dispatch | refuseReceive | post =>
      rw [streamOf_append]
      exact ⟨List.prefix_append _ _, id⟩
  | _ => exact ⟨List.prefix_refl _, id⟩

theorem Step.over_stays (step : Step v a w) (legal : SendsInTime v a) (over_ : v.outgoing.Over) :
    w.outgoing.Over ∧ streamOf w.posted = streamOf v.posted := by
  obtain ⟨open_, late, none⟩ := over_
  have handshake : ¬ (v.state = .listen ∨ v.state = .synSent ∨ v.state = .synReceived) := late.2
  have gone : TcpState.finishing .closed := by decide
  have silent : ∀ c : List Completion, (∀ x ∈ c, x.sentBytes = []) →
      streamOf (v.posted ++ c) = streamOf v.posted := fun c quiet => by
    rw [streamOf_append, streamOf_silent quiet, List.append_nil]
  cases step with
  | transmit _ _ sends =>
      rw [sends.moved]
      exact ⟨⟨open_, late, none⟩, rfl⟩
  | @consume ops rest _ _ queue =>
      have split : UdtBuf.opsLen ops + UdtBuf.opsLen rest = 0 := by
        rw [← opsLen_append, ← queue]
        exact none
      have empty : ops.flatMap SendOperation.bytes = [] := by
        apply List.eq_nil_of_length_eq_zero
        rw [bytes_length]
        omega
      refine ⟨⟨open_, late, ?_⟩, ?_⟩
      · change UdtBuf.opsLen rest = 0
        omega
      · rw [streamOf_append, streamOf_done, empty, List.append_nil]
  | @ackAll p c _ quiet =>
      refine ⟨⟨?_, TcpState.finishing_acked late, none⟩, silent c fun x member => (quiet x member).1⟩
      change (v.connected || _) = true
      rw [show v.connected = true from open_, Bool.true_or]
  | syn state => exact absurd state handshake
  | fin => exact ⟨⟨open_, TcpState.finishing_finned late, none⟩, rfl⟩
  | dispatch | refuseReceive =>
      exact ⟨⟨open_, late, none⟩, silent [_] (by simp [Completion.sentBytes])⟩
  | post quiet => exact ⟨⟨open_, late, none⟩, silent [_] (by simpa using quiet.1)⟩
  | closed => exact ⟨⟨open_, gone, none⟩, rfl⟩
  | cancel => exact ⟨⟨open_, late, rfl⟩, rfl⟩
  | send =>
      have sending : v.state = .established ∨ v.state = .closeWait := legal.2
      exact absurd sending late.1
  | connect state | accept state =>
      have unopened := legal.2 state
      exact absurd (open_.symm.trans unopened) (by decide)
  | shutdown =>
      refine ⟨⟨open_, ?_, none⟩, rfl⟩
      have early : ¬ v.state = .established ∧ ¬ v.state = .closeWait := not_or.mp late.1
      change TcpState.finishing (if v.state = .established then _ else _)
      rw [if_neg early.1, if_neg early.2]
      exact late
  | close => exact ⟨⟨open_, gone, none⟩, rfl⟩
  | _ => exact ⟨⟨open_, late, none⟩, rfl⟩

end Steps

/-- What an endpoint knows of a peer whose `m_rcv_nxt` is `peerNxt` and whose stream is `stream`. -/
structure Paired (stream : List UChar) (ended : Prop) (fins : Nat) (peerNxt : Word) (v : View) :
    Prop where
  drawing : Drawing stream ended fins v.incoming
  feeding : Feeding 1 v.outgoing
  synced : ¬ v.state.Unsynced ∨ v.connected = true → v.rcvNxt ≠ 0
  told : ∀ d ∈ v.sent, hasAck d.hdr.flags = true →
    Reached d.hdr.ack v.rcvNxt ∧ (hasSyn d.hdr.flags = false → v.connected = true)
  met : v.connected = true → peerNxt ≠ 0
  acked : v.sndUna = 0 ∨ Reached v.sndUna peerNxt

/-- What a packet's steps need when the peer sent the packet. -/
def Answers (p : UdtPacket) (stream : List UChar) (ended : Prop) (peerNxt : Word) (v : View) (a : Act) :
    Prop :=
  Draws p stream ended v a ∧ SendsInTime v a ∧
    match a with
    | .ack q => Reached q.hdr.ack peerNxt
    | .ackAll _ => (v.state = .synReceived → v.sndNxt = 1 ∧ peerNxt ≠ 0) ∧
        (v.state = .synSent → v.rcvNxt ≠ 0)
    | _ => True

namespace Paired

variable {stream : List UChar} {ended : Prop} {fins : Nat} {peerNxt : Word} {p : UdtPacket}
  {v w : View} {a : Act}

theorem told_later (k : Paired stream ended fins peerNxt v) (sent : w.sent = v.sent)
    (later : Advances v.rcvNxt w.rcvNxt) (open_ : v.connected = true → w.connected = true) :
    ∀ d ∈ w.sent, hasAck d.hdr.flags = true →
      Reached d.hdr.ack w.rcvNxt ∧ (hasSyn d.hdr.flags = false → w.connected = true) := by
  intro d member isAck
  rw [sent] at member
  obtain ⟨reached, plain⟩ := k.told d member isAck
  exact ⟨reached.trans later, fun noSyn => open_ (plain noSyn)⟩

theorem transmitted (k : Paired stream ended fins peerNxt v) {pkt : Option UdtPacket} {nxt : Word}
    {d : Transmission} {c : Core} (alive : v.state ≠ .closed) (sends : Sends v.toCore pkt nxt d c)
    (isAck : hasAck d.hdr.flags = true) :
    Reached d.hdr.ack v.rcvNxt ∧ (hasSyn d.hdr.flags = false → v.connected = true) := by
  have flags : ∀ q : TcpState, hasAck q.outflags = true → q ≠ .closed → ¬ q.Unsynced := by
    intro q
    cases q <;> decide
  have shook : ∀ q : TcpState, ¬ q.Unsynced → hasSyn q.outflags = false → q ≠ .closed ∧ ¬ q.inHandshake := by
    intro q
    cases q <;> decide
  have isAck : hasAck v.state.outflags = true := by
    rw [sends.flags, Core.outputFlags_ack] at isAck
    exact isAck
  have known := flags _ isAck alive
  have some_ := k.synced (.inl known)
  rw [sends.ack]
  refine ⟨⟨some_, some_, Nat.le_refl _⟩, fun noSyn => ?_⟩
  rw [sends.flags, Core.outputFlags_syn] at noSyn
  obtain ⟨open_, past⟩ := shook _ known noSyn
  by_contra unopened
  rcases (k.feeding.idle (Bool.eq_false_iff.mpr unopened)).1 with closed | handshake
  · exact open_ closed
  · exact past handshake

/-- As long as no connection is open no number of the stream is known. -/
theorem rebase {x : Outgoing} {base : Word} (f : Feeding base x) (unopened : x.connected = false)
    (other : Word) : Feeding other x := by
  obtain ⟨_, _, none, _, empty⟩ := f.idle unopened
  refine ⟨f.shut, f.past, f.idle, f.iss, fun open_ => ?_, fun q member => ?_, fun d member => ?_,
    fun d member fin => ?_, f.wire⟩
  · exact absurd (open_.symm.trans unopened) (by decide)
  · rw [none] at member
    contradiction
  · obtain ⟨iss, shook, _⟩ := f.sent d member
    refine ⟨iss, shook, fun q inside => ?_⟩
    rw [empty d member] at inside
    contradiction
  · exact absurd ((f.fin d member fin).1.symm.trans unopened) (by decide)

/-- The base of the stream stays the number behind the SYN. -/
theorem feeding_step (k : Paired stream ended fins peerNxt v) (step : Step v a w)
    (legal : Answers p stream ended peerNxt v a) : Feeding 1 w.outgoing := by
  obtain ⟨base, fed, same | ⟨state, unopened, moved⟩⟩ := step.feeding legal.2.1 k.feeding
  · rw [same] at fed
    exact fed
  · cases open_ : w.connected with
    | false => exact rebase fed open_ 1
    | true =>
        -- only an acknowledgement of everything opens the connection
        cases step with
        | @ackAll q =>
            have one : base = 1 := moved.trans (legal.2.2.1 state).1
            rw [one] at fed
            exact fed
        | transmit _ _ sends =>
            rw [sends.moved] at open_
            exact absurd (open_.symm.trans unopened) (by decide)
        | _ => exact absurd (open_.symm.trans unopened) (by decide)

theorem step (k : Paired stream ended fins peerNxt v) (step : Step v a w)
    (legal : Answers p stream ended peerNxt v a) (holds : v.incoming.Holds p) :
    Paired stream ended fins peerNxt w ∧ w.incoming.Holds p ∧ Advances v.rcvNxt w.rcvNxt := by
  obtain ⟨drawing, held, later⟩ := step.drawing legal.1 k.drawing holds
  have feeding := k.feeding_step step legal
  have open_ := step.grows.2
  refine ⟨?_, held, later⟩
  -- nothing but the two streams has moved
  have still : w.state = v.state → w.connected = v.connected → w.sent = v.sent → w.sndUna = v.sndUna →
      Paired stream ended fins peerNxt w := by
    intro state connected sent una
    refine ⟨drawing, feeding, fun known => ?_, k.told_later sent later open_, ?_, ?_⟩
    · rw [state, connected] at known
      exact (later (k.synced known)).2.1
    · rw [connected]
      exact k.met
    · rw [una]
      exact k.acked
  have restated : w.connected = v.connected → w.sent = v.sent →
      (¬ w.state.Unsynced → ¬ v.state.Unsynced) → w.sndUna = v.sndUna ∨ w.sndUna = 0 →
        Paired stream ended fins peerNxt w := by
    intro connected sent state una
    refine ⟨drawing, feeding, fun known => ?_, k.told_later sent later open_, ?_, ?_⟩
    · rw [connected] at known
      exact (later (k.synced (known.imp_left state))).2.1
    · rw [connected]
      exact k.met
    · rcases una with same | zero
      · rw [same]
        exact k.acked
      · exact .inl zero
  cases step with
  | @transmit c' pkt nxt d _ alive sends =>
      have said := k.transmitted alive sends
      have moved := sends.moved
      clear sends
      subst moved
      refine ⟨drawing, feeding, k.synced, ?_, k.met, k.acked⟩
      exact List.forall_mem_append.mpr ⟨k.told, List.forall_mem_singleton.mpr said⟩
  | ackAll =>
      obtain ⟨opens, greets⟩ := legal.2.2
      have early : ∀ q : TcpState, q ≠ .synSent → ¬ (q.acked v.sentfin).Unsynced → ¬ q.Unsynced := by
        intro q
        cases q <;> cases v.sentfin <;> decide
      refine ⟨drawing, feeding, fun known => ?_, k.told_later rfl later open_, fun known => ?_, k.acked⟩
      · by_cases sent : v.state = .synSent
        · exact greets sent
        by_cases received : v.state = .synReceived
        · refine k.synced (.inl ?_)
          rw [received]
          decide
        refine k.synced (known.imp (early _ sent) fun known => ?_)
        simpa [received] using known
      · by_cases received : v.state = .synReceived
        · exact (opens received).2
        · exact k.met (by simpa [received] using known)
  | @syn q state =>
      have one : q.hdr.seq + 1 ≠ 0 := by
        rw [legal.1.2.1]
        decide
      refine ⟨drawing, feeding, fun _ => one, k.told_later rfl later open_, k.met, ?_⟩
      change (if v.state = .listen then sIss else v.sndUna) = 0 ∨ _
      split
      · exact .inl rfl
      · exact k.acked
  | ack => exact { k with drawing, feeding, acked := .inr legal.2.2 }
  | closed => exact restated rfl rfl (fun known => absurd (.inl rfl) known) (.inl rfl)
  | connect state => exact restated rfl rfl (fun known => absurd (.inr (.inr rfl)) known) (.inr rfl)
  | accept state => exact restated rfl rfl (fun known => absurd (.inr (.inl rfl)) known) (.inl rfl)
  | shutdown =>
      refine restated rfl rfl (fun known => ?_) (.inl rfl)
      dsimp only at known
      split_ifs at known with open_ waiting
      · rw [open_]
        decide
      · rw [waiting]
        decide
      · exact known
  | close => exact restated rfl rfl (fun known => absurd (.inl rfl) known) (.inl rfl)
  | fin => exact absurd legal.1 not_false
  | _ => exact still rfl rfl rfl rfl

theorem path (k : Paired stream ended fins peerNxt v) (holds : v.incoming.Holds p)
    (path : ViewPath (Answers p stream ended peerNxt) v w) :
    Paired stream ended fins peerNxt w ∧ w.incoming.Holds p ∧ Advances v.rcvNxt w.rcvNxt := by
  refine path.invariant (I := fun u => Paired stream ended fins peerNxt u ∧ u.incoming.Holds p ∧
    Advances v.rcvNxt u.rcvNxt) ⟨k, holds, Advances.refl _⟩ ?_
  rintro u a x ⟨k, holds, before⟩ legal step
  obtain ⟨k', holds', after⟩ := k.step step legal holds
  exact ⟨k', holds', before.trans after⟩

theorem fin (k : Paired stream ended fins peerNxt v) (alive : v.nextLayer = true)
    (more : stream.length + (fins + 1) < 2 ^ 31) {q : UdtPacket} (member : q ∈ v.rcvBuf.pkts)
    (last : hasFin q.hdr.flags = true) (step : Step v .fin w) :
    Paired stream ended (fins + 1) peerNxt w ∧ Advances v.rcvNxt w.rcvNxt := by
  obtain ⟨drawing, later⟩ := k.drawing.finned alive more member last v.state.haveRcvdFin
  have feeding : Feeding 1 w.outgoing := by
    obtain ⟨base, fed, same | ⟨_, unopened, _⟩⟩ := step.feeding trivial k.feeding
    · rw [same] at fed
      exact fed
    · cases step with
      | fin => exact rebase fed unopened 1
  have early : ∀ q : TcpState, ¬ q.finned.Unsynced → ¬ q.Unsynced := by
    intro q
    cases q <;> decide
  have open_ := step.grows.2
  cases step with
  | fin =>
      refine ⟨⟨drawing, feeding, fun known => ?_, k.told_later rfl later open_, k.met, k.acked⟩, later⟩
      exact (later (k.synced (known.imp_left (early _)))).2.1

theorem longer (k : Paired stream ended fins peerNxt v) {more : List UChar} {ended' : Prop}
    {fins' : Nat} {peerNxt' : Word} (grown : stream <+: more)
    (still : ended → ended' ∧ more = stream) (fewer : fins ≤ fins')
    (short : more.length + fins' < 2 ^ 31) (later : Advances peerNxt peerNxt') :
    Paired more ended' fins' peerNxt' v where
  drawing := k.drawing.longer grown still fewer short
  feeding := k.feeding
  synced := k.synced
  told := k.told
  met open_ := (later (k.met open_)).2.1
  acked := k.acked.imp_right fun reached => reached.trans later

end Paired

end UdtBoost
