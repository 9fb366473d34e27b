import UdtBoost.Intake
import UdtBoost.Sent
import UdtBoost.WindowUpdate

/-! The opening of a connection. `update_ack_state` goes by the acknowledgement alone, and
`TCP_REASS` runs in every state, so that a packet before the peer's SYN is only kept out by what
it carries. -/
namespace UdtBoost

namespace TcpState

/-- No SYN of the peer is needed to get here. -/
def Unsynced (q : TcpState) : Prop := q = closed ∨ q = listen ∨ q = synSent

instance (q : TcpState) : Decidable q.Unsynced := inferInstanceAs (Decidable (_ ∨ _ ∨ _))

theorem opened_of_finned {q : TcpState} (opened : established.value ≤ q.finned.value) :
    established.value ≤ q.value := by
  cases q <;> revert opened <;> decide

/-- Only an acknowledgement in SYN_RECEIVED opens a connection. -/
theorem opened_of_acked {q : TcpState} {sentfin : Bool}
    (opened : established.value ≤ (q.acked sentfin).value) :
    established.value ≤ q.value ∨ q = synReceived := by
  cases q <;> cases sentfin <;> revert opened <;> decide

end TcpState

namespace Core

/-- What is past the initial number was sent with a SYN. -/
def SynLogged (c : Core) (sent : List Transmission) : Prop :=
  hasSyn c.state.outflags = true → c.sndMax ≠ c.iss →
    ∃ t ∈ sent, hasSyn t.hdr.flags = true ∧ t.hdr.seq = c.iss

theorem SynLogged.of_plain {c : Core} {log : List Transmission} (sent : c.state ≠ .synSent)
    (received : c.state ≠ .synReceived) : c.SynLogged log :=
  fun syn => ((TcpState.syn_cases syn).elim sent received).elim

end Core

theorem Sends.startsSyn {c c' : Core} {pkt : Option UdtPacket} {nxt : Word} {t : Transmission}
    (sends : Sends c pkt nxt t c') (syn : hasSyn c.state.outflags = true) :
    hasSyn t.hdr.flags = true ∧ t.hdr.seq = c.iss := by
  have isSyn : hasSyn t.hdr.flags = true := by rw [sends.flags, Core.outputFlags_syn, syn]
  have noFin : hasFin t.hdr.flags = false := by rw [sends.flags, Core.outputFlags_syn_fin _ _ syn]
  refine ⟨isSyn, ?_⟩
  rcases sends.seq with start | ⟨_, noSyn, _⟩
  · rw [start]
    simp [Core.rewound, isSyn, noFin]
  · rw [isSyn] at noSyn
    contradiction

theorem Step.synLogged {v w : View} {a : Act} (step : Step v a w)
    (log : v.toCore.SynLogged v.sent) : w.toCore.SynLogged w.sent := by
  cases step with
  | @transmit c' pkt nxt t chosen alive sends =>
      intro syn _
      have state : c'.state = v.state := by rw [sends.moved]
      have iss : c'.iss = v.iss := by rw [sends.moved]
      rw [state] at syn
      obtain ⟨isSyn, start⟩ := sends.startsSyn syn
      exact ⟨t, by simp, isSyn, start.trans iss.symm⟩
  | ackAll => exact fun syn => log (TcpState.syn_of_acked syn)
  | syn state =>
      intro _ past
      rcases state with listen | sent | received
      · simp [listen] at past
      · refine log (by rw [sent]; rfl) ?_ |>.imp fun t => ?_
        · simpa [sent] using past
        · simp [sent]
      · refine log (by rw [received]; rfl) ?_ |>.imp fun t => ?_
        · simpa [received] using past
        · simp [received]
  | fin => exact fun syn => log (TcpState.syn_of_finned syn)
  | closed => exact .of_plain (by simp) (by simp)
  | connect => exact fun _ past => absurd rfl past
  | accept => exact .of_plain (by simp) (by simp)
  | shutdown =>
      intro syn
      dsimp only at syn
      split_ifs at syn
      · exact absurd syn (by decide)
      · exact absurd syn (by decide)
      · exact log syn
  | close => exact .of_plain (by simp) (by simp)
  | _ => exact log

/-- What is known of the connection's own SYN, whatever arrives. -/
structure View.OwnSyn (v : View) : Prop where
  near : v.SynNear
  logged : v.toCore.SynLogged v.sent

theorem Step.ownSyn {v w : View} {a : Act} (step : Step v a w) (own : v.OwnSyn)
    (legal : ∀ nxt, a = .restore nxt → NearIss v nxt) : w.OwnSyn :=
  ⟨step.synNear own.near legal, step.synLogged own.logged⟩

theorem ownSynRule : Restores (fun _ _ => True) NearIss View.OwnSyn where
  keep _ _ _ own met step := step.ownSyn own met.2
  restore _ _ own path := own.near.restored path

namespace Endpoint

variable {s t : Endpoint} {p : UdtPacket} {e : Event}

theorem run_ownSyn (fack sndSeq rcvSeq : Word) (env : Env) (es : List Event) :
    ((init fack sndSeq rcvSeq env).run es).view.OwnSyn :=
  (run_invariant_restores es (init_calm fack sndSeq rcvSeq env) ownSynRule
    ⟨(run_logged fack sndSeq rcvSeq env []).near,
      .of_plain (by simp [view, init, UdtCb.init, Conn.core])
        (by simp [view, init, UdtCb.init, Conn.core])⟩).2

theorem entered_view (s : Endpoint) (p : UdtPacket) : (s.entered p).view = s.view :=
  s.timed_view p

theorem synced_step (s : Endpoint) (p : UdtPacket) :
    (s.synced p).view = s.view ∨ Step s.view (.syn p) (s.synced p).view := by
  have view := s.entered_view p
  have state := s.entered_state p
  unfold synced
  split
  case isFalse => exact .inl view
  rw [handleSyn_view]
  split
  case isFalse => exact .inl view
  case isTrue greets =>
    right
    have step := Step.syn (v := (s.entered p).view) (p := p) greets
    rw [← view]
    exact step

/-- The connection's own SYN is counted as before when the peer's has been handled. -/
theorem synced_ownSyn (own : s.view.OwnSyn) (p : UdtPacket) : (s.synced p).view.OwnSyn := by
  rcases s.synced_step p with same | step
  · rw [same]
    exact own
  · exact step.ownSyn own (by simp)

/-- An acknowledgement that is accepted becomes `m_snd_una`. -/
theorem handleAck_accepted (accepted : s.acceptsAck p.hdr) :
    (s.handleAck p).2.cb.iss = s.cb.iss ∧ (s.handleAck p).2.cb.sndUna = p.hdr.ack := by
  have acked : (s.acked p).cb.iss = s.cb.iss ∧ (s.acked p).cb.sndUna = s.cb.sndUna := by
    obtain ⟨_, _, _, _, _, _, _, _, _, _, _, _, _, _, _, _, _, _, _, _, result⟩ := s.acked_eq p
    rw [result]
    exact ⟨rfl, rfl⟩
  have outcome := s.handleAck_outcome p
  generalize s.handleAck p = result at outcome ⊢
  cases outcome with
  | old old => exact absurd old accepted.1
  | beyond beyond => exact absurd beyond accepted.2
  | duplicate _ same =>
      have steady := (s.acked p).ackDuplicate_steady p.hdr
      exact ⟨(congrArg Steady.iss steady).trans acked.1,
        (congrArg Steady.sndUna steady).trans (acked.2.trans same.symm)⟩
  | new =>
      obtain ⟨_, _, _, _, _, _, _, _, _, result⟩ := (s.acked p).ackNewData_eq p.hdr
      rw [result]
      exact ⟨acked.1, rfl⟩

theorem handleFin_numbers (s : Endpoint) :
    s.handleFin.cb.iss = s.cb.iss ∧ s.handleFin.cb.sndUna = s.cb.sndUna := by
  obtain ⟨_, _, result⟩ := s.handleFin_eq
  rw [result]
  split <;> exact ⟨rfl, rfl⟩

/-- `input` opens a connection with an acknowledgement of everything, in SYN_RECEIVED. -/
theorem inputChecked_opens (shut : ¬ s.Opened) (opens : (s.inputChecked p).Opened) :
    s.takes p ∧ hasAck p.hdr.flags = true ∧ (s.synced p).cb.state = .synReceived ∧
      p.hdr.ack = (s.synced p).cb.sndMax ∧
      (s.inputChecked p).cb.iss = (s.synced p).cb.iss ∧
      (s.inputChecked p).cb.sndUna = p.hdr.ack := by
  have hdr := counted_hdr p
  have taken : s.takes p := by
    by_contra refused
    rw [Opened, (s.inputChecked_intake p).2, if_neg refused] at opens
    exact shut opens
  have missed : ((s.entered p).doHeaderPrediction p).1 = false := by
    by_contra fast
    have established := (predicts_of_taken (by simpa using fast)).1
    rw [s.entered_state p] at established
    exact shut (by rw [Opened, established])
  have state := (s.inputChecked_intake p).2
  rw [if_pos taken] at state
  have here : (s.finPoint p).Opened := by
    rw [Opened, state] at opens
    split at opens
    · exact TcpState.opened_of_finned opens
    · exact opens
  have before : ¬ TcpState.established.value ≤ (s.synced p).cb.state.value := by
    rw [(s.synced_intake p).2]
    split
    · decide
    · exact shut
  obtain ⟨isAck, all, received⟩ : hasAck p.hdr.flags = true ∧
      (s.reassembled p).acksAll p.counted.hdr ∧ (s.synced p).cb.state = .synReceived := by
    rw [Opened, (s.finPoint_intake p).2] at here
    split at here
    · next acks => exact ⟨acks.1, acks.2, (TcpState.opened_of_acked here).resolve_left before⟩
    · exact absurd here before
  obtain ⟨_, _, iss, max⟩ := s.reassembled_unmoved p
  obtain ⟨ackIss, ackUna⟩ := handleAck_accepted all.1
  have point : s.finPoint p = ((s.reassembled p).handleAck p.counted).2 := if_pos isAck
  rw [← point] at ackIss ackUna
  have numbers : (s.inputChecked p).cb.iss = (s.finPoint p).cb.iss ∧
      (s.inputChecked p).cb.sndUna = (s.finPoint p).cb.sndUna := by
    rw [inputChecked_segment taken missed]
    split
    · exact (s.finPoint p).handleFin_numbers
    · exact ⟨rfl, rfl⟩
  have ack : p.hdr.ack = (s.synced p).cb.sndMax := by rw [← max, all.2, hdr.1]
  exact ⟨taken, isAck, received, ack, numbers.1.trans (ackIss.trans iss),
    numbers.2.trans (ackUna.trans hdr.1)⟩

theorem synced_numbers (s : Endpoint) (p : UdtPacket) :
    (s.synced p).cb.iss =
        (if hasSyn p.hdr.flags = true ∧ s.cb.state = .listen then sIss else s.cb.iss) ∧
      (s.synced p).cb.sndMax =
        (if hasSyn p.hdr.flags = true ∧ s.cb.state = .listen then sIss else s.cb.sndMax) ∧
      (s.synced p).sent = s.sent := by
  have view := s.entered_view p
  have state := s.entered_state p
  have iss : (s.entered p).cb.iss = s.cb.iss := congrArg (fun v : View => v.iss) view
  have max : (s.entered p).cb.sndMax = s.cb.sndMax := congrArg (fun v : View => v.sndMax) view
  have sent : (s.entered p).sent = s.sent := congrArg (fun v : View => v.sent) view
  by_cases isSyn : hasSyn p.hdr.flags = true
  · simp only [synced, isSyn, if_true, true_and]
    have handled := (s.entered p).handleSyn_view p
    rw [state, iss, max] at handled
    generalize ((s.entered p).handleSyn p).2.2 = t at handled ⊢
    change t.view.iss = _ ∧ t.view.sndMax = _ ∧ t.view.sent = _
    rw [handled]
    split
    · exact ⟨rfl, rfl, sent⟩
    · next other =>
        have quiet : s.cb.state ≠ .listen := fun listen => other (.inl listen)
        rw [if_neg quiet, if_neg quiet]
        exact ⟨iss, max, sent⟩
  · have plain : ¬(hasSyn p.hdr.flags = true ∧ s.cb.state = .listen) := fun both => isSyn both.1
    rw [synced, if_neg isSyn, if_neg plain, if_neg plain]
    exact ⟨iss, max, sent⟩

/-- Nothing has been sent for the connection the packet is to open. -/
def unsent (s : Endpoint) : Prop := s.cb.state = .listen ∨ s.cb.sndMax = s.cb.iss

instance (s : Endpoint) : Decidable s.unsent := inferInstanceAs (Decidable (_ ∨ _))

/-- The number the connection's own SYN has, once the packet has been looked at. -/
def firstSeq (s : Endpoint) : Word := if s.cb.state = .listen then sIss else s.cb.iss

/-- The user starts a connection. -/
def starts (s : Endpoint) : Event → Prop
  | .connect _ | .accept _ => s.cb.state = .closed
  | _ => False

theorem starts_iff (s : Endpoint) (e : Event) :
    (e matches .connect _ | .accept _) = true ∧ s.cb.state = .closed ↔ s.starts e := by
  cases e <;> simp [starts]

instance (s : Endpoint) (e : Event) : Decidable (s.starts e) := decidable_of_iff _ (s.starts_iff e)

/-- The packet has nothing for `TCP_REASS`, finds no FIN in `rcv_buf`, and does not acknowledge
everything in SYN_SENT. -/
def silent (s : Endpoint) (p : UdtPacket) : Prop :=
  ¬ needsReass p.hdr ∧ s.sk.rcvBuf.fin = false ∧
    (hasAck p.hdr.flags = true → s.cb.state = .synSent → p.hdr.ack ≠ s.cb.sndMax)

instance (s : Endpoint) (p : UdtPacket) : Decidable (s.silent p) :=
  inferInstanceAs (Decidable (_ ∧ _ ∧ (_ → _ → _)))

/-- What the packet acknowledges, while nothing has been sent, is not the number of the SYN. -/
def acksPast (s : Endpoint) (p : UdtPacket) : Prop :=
  (hasSyn p.hdr.flags = true ∧ s.greets ∨ s.cb.state = .synReceived) →
    hasAck p.hdr.flags = true → s.unsent → p.hdr.ack ≠ s.firstSeq

instance (s : Endpoint) (p : UdtPacket) : Decidable (s.acksPast p) :=
  inferInstanceAs (Decidable (_ → _ → _ → _))

/-- Where it acknowledges more than nothing, what opens the connection acknowledges its SYN. -/
theorem inputChecked_acked (own : s.view.OwnSyn) (shut : ¬ s.Opened)
    (opens : (s.inputChecked p).Opened)
    (past : s.acksPast p) :
    seqGt (s.inputChecked p).cb.sndUna (s.inputChecked p).cb.iss ∧
      ∃ t ∈ s.sent, hasSyn t.hdr.flags = true ∧ t.hdr.seq = (s.inputChecked p).cb.iss := by
  obtain ⟨_, isAck, received, ack, iss, una⟩ := inputChecked_opens shut opens
  obtain ⟨issHere, maxHere, sent⟩ := s.synced_numbers p
  have near := (synced_ownSyn own p).near
  have logged := (synced_ownSyn own p).logged
  have syn : hasSyn (s.synced p).cb.state.outflags = true := by rw [received]; rfl
  have greeted : hasSyn p.hdr.flags = true ∧ s.greets ∨ s.cb.state = .synReceived := by
    have state := (s.synced_intake p).2
    split at state
    · next greeted => exact .inl greeted
    · exact .inr (state.symm.trans received)
  have moved : (s.synced p).cb.sndMax ≠ (s.synced p).cb.iss := by
    intro same
    have never := past greeted isAck
    rw [ack, same, issHere] at never
    rw [issHere, maxHere] at same
    split at never
    · next listen => exact never (.inl listen.2) (if_pos listen.2).symm
    · next other =>
        rw [if_neg other, if_neg other] at same
        have quiet : s.cb.state ≠ .listen := by
          intro listen
          rcases greeted with ⟨isSyn, _⟩ | received
          · exact other ⟨isSyn, listen⟩
          · rw [listen] at received
            contradiction
        exact never (.inr same) (if_neg quiet).symm
  obtain ⟨_, max, _⟩ := near syn
  obtain ⟨t, member, isSyn, start⟩ := logged syn moved
  change ((s.synced p).cb.sndMax - (s.synced p).cb.iss).toNat ≤ 65537 at max
  change t ∈ (s.synced p).sent at member
  rw [sent] at member
  rw [una, ack, iss]
  refine ⟨?_, t, member, isSyn, start⟩
  rw [seqGt_iff]
  bv_omega

/-- A packet that comes before the peer's SYN leaves the receiving half as it was. -/
theorem inputChecked_silent (unsynced : s.cb.state.Unsynced)
    (silent : s.admits p.hdr = true → hasSyn p.hdr.flags = false → s.silent p)
    (accepted : (s.inputChecked p).synAccepted = s.synAccepted) :
    (s.inputChecked p).intake = s.intake ∧ (s.inputChecked p).cb.state.Unsynced := by
  obtain ⟨intake, state⟩ := s.inputChecked_intake p
  by_cases taken : s.takes p
  case neg =>
    rw [if_neg taken] at intake state
    rw [intake, state]
    exact ⟨rfl, unsynced⟩
  have admitted := taken.1
  have greets : s.greets := by
    rcases unsynced with closed | listen | sent
    · exact absurd closed (s.admits_iff p.hdr |>.mp admitted).1
    · exact .inl listen
    · exact .inr (.inl sent)
  have unmoved : (s.inputChecked p).synAccepted = (s.synced p).synAccepted :=
    (congrArg Intake.synAccepted (taken_intake taken)).trans (s.reassembled_unmoved p).2.1
  have noSyn : hasSyn p.hdr.flags = false := by
    rw [Bool.eq_false_iff]
    intro isSyn
    have synced := (s.synced_intake p).1
    rw [if_pos ⟨isSyn, greets⟩] at synced
    rw [accepted, show (s.synced p).synAccepted = _ from congrArg Intake.synAccepted synced] at unmoved
    simp at unmoved
  obtain ⟨bare, unread, unacked⟩ := silent admitted noSyn
  have buffer : (s.entered p).sk.rcvBuf = s.sk.rcvBuf :=
    congrArg (fun v : View => v.rcvBuf) (s.entered_view p)
  have whole : s.reassembled p = s.entered p := by
    rw [reassembled_plain noSyn, stored, if_neg bare]
  have noFin : ¬ s.comesToFin p := by
    rintro ⟨_, _, fin, _⟩
    rw [whole, buffer, unread] at fin
    contradiction
  have synced := (s.synced_intake p).2
  rw [if_neg (by simp [noSyn])] at synced
  rw [if_pos taken, if_neg noFin] at intake
  rw [if_pos taken, if_neg noFin, (s.finPoint_intake p).2, synced] at state
  refine ⟨by rw [intake, whole, s.entered_intake], ?_⟩
  rw [state]
  split
  · next acks =>
      have everything : p.hdr.ack = s.cb.sndMax := by
        have all := acks.2.2
        rw [(counted_hdr p).1, whole] at all
        exact all.symm.trans (congrArg (fun v : View => v.sndMax) (s.entered_view p))
      rcases unsynced with closed | listen | sent
      · rw [closed]
        exact .inl rfl
      · rw [listen]
        exact .inr (.inl rfl)
      · exact absurd everything (unacked acks.1 sent)
  · exact unsynced

end Endpoint

/-- An endpoint, and whether a SYN was accepted since its connection was started. -/
structure Handshake where
  endpoint : Endpoint
  greeted : Bool

namespace Handshake

def next (h : Handshake) (e : Event) : Handshake where
  endpoint := h.endpoint.step e
  greeted := !decide (h.endpoint.starts e) &&
    (h.greeted || decide ((h.endpoint.step e).synAccepted ≠ h.endpoint.synAccepted))

/-- A packet before the peer's SYN is silent, and none acknowledges what was not sent. -/
def Plain (h : Handshake) (e : Event) : Prop :=
  ∀ p ∈ h.endpoint.arriving e, h.endpoint.admits p.hdr = true →
    (h.greeted = false → hasSyn p.hdr.flags = false → h.endpoint.silent p) ∧
      h.endpoint.acksPast p

instance (h : Handshake) (e : Event) : Decidable (h.Plain e) :=
  inferInstanceAs (Decidable (∀ p ∈ h.endpoint.arriving e, _ → _ ∧ _))

/-- Before the peer's SYN the connection is not open. -/
def Guarded (h : Handshake) : Prop := h.greeted = false → h.endpoint.cb.state.Unsynced

section Steps

variable {h : Handshake} {e : Event} {p : UdtPacket}

theorem unsynced_local {v w : View} (path : ViewPath (fun _ a => a.Local) v w)
    (before : v.state.Unsynced) : w.state.Unsynced := by
  refine path.invariant (I := fun u => u.state.Unsynced) before ?_
  intro u a x unsynced here step
  rcases (step.local here).2.2.2 with same | closed | ⟨_, ⟨sent, _⟩ | ⟨listen, _⟩⟩ |
    ⟨open_, _⟩ | ⟨waiting, _⟩
  · rwa [same]
  · exact .inl closed
  · exact .inr (.inr sent)
  · exact .inr (.inl listen)
  · rw [open_] at unsynced
    exact absurd unsynced (by decide)
  · rw [waiting] at unsynced
    exact absurd unsynced (by decide)

theorem next_greeted_arriving (here : h.endpoint.arriving e = some p) :
    (h.next e).greeted = (h.greeted ||
      decide ((h.endpoint.inputChecked p).synAccepted ≠ h.endpoint.synAccepted)) := by
  have accepted : (h.endpoint.step e).synAccepted = (h.endpoint.inputChecked p).synAccepted :=
    (Endpoint.arriving_path here).local_of_tau.local.2.2
  obtain ⟨hdr, mem, n, buffer, rfl, _⟩ := Endpoint.arriving_inv here
  have quiet : ¬ h.endpoint.starts (.packet hdr mem n) := id
  rw [next, accepted, decide_eq_false quiet]
  rfl

theorem inputChecked_ungreeted (plain : h.Plain e) (here : h.endpoint.arriving e = some p)
    (guarded : h.Guarded) (still : (h.next e).greeted = false) :
    (h.endpoint.inputChecked p).intake = h.endpoint.intake ∧
      (h.endpoint.inputChecked p).cb.state.Unsynced := by
  rw [next_greeted_arriving here, Bool.or_eq_false_iff, decide_eq_false_iff_not, not_not] at still
  obtain ⟨ungreeted, accepted⟩ := still
  exact Endpoint.inputChecked_silent (guarded ungreeted)
    (fun admitted noSyn => (plain p here admitted).1 ungreeted noSyn) accepted

theorem Guarded.next (guarded : h.Guarded) (plain : h.Plain e) : (h.next e).Guarded := by
  intro still
  cases here : h.endpoint.arriving e with
  | none =>
      refine unsynced_local (Endpoint.local_path here) ?_
      have before : h.endpoint.starts e ∨ h.greeted = false := by
        by_contra other
        obtain ⟨quiet, greeted⟩ := not_or.mp other
        simp [Handshake.next, quiet, greeted] at still
      rcases before with starts | ungreeted
      · refine .inl ?_
        cases e with
        | connect | accept => exact starts
        | _ => exact absurd starts id
      · exact guarded ungreeted
  | some p =>
      have unsynced := (inputChecked_ungreeted plain here guarded still).2
      rcases (ViewPath.tau_state (Endpoint.arriving_path here)).2 with same | closed
      · change (h.endpoint.step e).cb.state.Unsynced
        rwa [show (h.endpoint.step e).cb.state = (h.endpoint.inputChecked p).cb.state from same]
      · exact .inl closed

theorem not_opened_of_unsynced {s : Endpoint} (unsynced : s.cb.state.Unsynced) : ¬ s.Opened := by
  rw [Endpoint.Opened]
  rcases unsynced with state | state | state <;> rw [state] <;> decide

/-- Only `input` opens a connection. -/
theorem opened_by_packet {s : Endpoint} (opened : (s.step e).Opened) :
    s.Opened ∨ ∃ p ∈ s.arriving e, (s.inputChecked p).Opened := by
  rw [Endpoint.Opened] at opened
  cases here : s.arriving e with
  | none =>
      left
      refine (Endpoint.local_path here).invariant
        (I := fun v => TcpState.established.value ≤ v.state.value → s.Opened) id ?_ opened
      intro v a w before local_ step after
      rcases (step.local local_).2.2.2 with same | closed | ⟨_, ⟨sent, _⟩ | ⟨listen, _⟩⟩ |
        ⟨open_, _⟩ | ⟨waiting, _⟩
      · exact before (same ▸ after)
      · rw [closed] at after
        exact absurd after (by decide)
      · rw [sent] at after
        exact absurd after (by decide)
      · rw [listen] at after
        exact absurd after (by decide)
      · exact before (by rw [open_])
      · exact before (by rw [waiting]; decide)
  | some p =>
      right
      refine ⟨p, rfl, ?_⟩
      rcases (ViewPath.tau_state (Endpoint.arriving_path here)).2 with same | closed
      · rwa [show (s.step e).cb.state = (s.inputChecked p).cb.state from same] at opened
      · rw [show (s.step e).cb.state = _ from closed] at opened
        exact absurd opened (by decide)

theorem run_endpoint (h : Handshake) (es : List Event) :
    (es.foldl next h).endpoint = h.endpoint.run es := by
  induction es generalizing h with
  | nil => rfl
  | cons e es ih => exact ih (h.next e)

end Steps

/-- In every run of such packets the connection is open only after the peer's SYN. What opens it
acknowledges our own SYN, which was sent, and no packet before the peer's SYN moves
`m_rcv_nxt` or brings a packet into a queue. -/
theorem handshake_safe (fack sndSeq rcvSeq : Word) (env : Env) (es : List Event)
    (plain : Trace.Meets next Plain ⟨.init fack sndSeq rcvSeq env, false⟩ es) :
    let h := es.foldl next ⟨.init fack sndSeq rcvSeq env, false⟩
    (h.endpoint.Opened → h.greeted = true) ∧
      ∀ e, h.Plain e →
        ((h.next e).endpoint.Opened →
          h.endpoint.Opened ∨ ∃ p ∈ h.endpoint.arriving e, (h.endpoint.inputChecked p).Opened) ∧
        ∀ p ∈ h.endpoint.arriving e,
          let t := h.endpoint.inputChecked p
          (¬ h.endpoint.Opened → t.Opened → (h.next e).greeted = true ∧
            seqGt t.cb.sndUna t.cb.iss ∧
              ∃ x ∈ h.endpoint.sent, hasSyn x.hdr.flags = true ∧ x.hdr.seq = t.cb.iss) ∧
          ((h.next e).greeted = false → t.intake = h.endpoint.intake ∧
            (h.next e).endpoint.cb.rcvNxt = h.endpoint.cb.rcvNxt) := by
  have guarded := plain.invariant (I := Guarded) (fun _ => .inl rfl)
    fun h e guarded plain => guarded.next plain
  have own := Endpoint.run_ownSyn fack sndSeq rcvSeq env es
  rw [← run_endpoint ⟨_, false⟩ es] at own
  dsimp only
  generalize es.foldl next ⟨.init fack sndSeq rcvSeq env, false⟩ = h at guarded own ⊢
  refine ⟨fun opened => ?_, fun e plain => ⟨opened_by_packet, fun p here => ⟨fun shut opens => ?_,
    fun still => ?_⟩⟩⟩
  · by_contra ungreeted
    exact not_opened_of_unsynced (guarded (by simpa using ungreeted)) opened
  · refine ⟨?_, ?_⟩
    · by_contra ungreeted
      have still := inputChecked_ungreeted plain here guarded (by simpa using ungreeted)
      exact not_opened_of_unsynced still.2 opens
    · have admitted := (Endpoint.inputChecked_opens shut opens).1.1
      exact Endpoint.inputChecked_acked own shut opens (plain p here admitted).2
  · have same := (inputChecked_ungreeted plain here guarded still).1
    refine ⟨same, ?_⟩
    exact (Endpoint.arriving_path here).local_of_tau.local.2.1.trans (congrArg Intake.rcvNxt same)

/-- The peer's SYN, the acknowledgement of ours, and two bytes without a SYN. -/
def peerSyn : Event := .datagram (UdtHdr.mk 0 UdtHdr.TH_SYN 4000 0 20 100 0 0) []

def peerAck : Event := .datagram (UdtHdr.mk 0 UdtHdr.TH_ACK 4000 0 20 101 1 0) []

def strayData : Event := .datagram (UdtHdr.mk 0 UdtHdr.TH_ACK 4000 2 20 0 0 0) [1, 2]

/-- A passive open that has taken the peer's SYN. -/
def synTaken : Handshake := [.accept 0, peerSyn].foldl next ⟨.init 0 0 0 Env.zero, false⟩

theorem handshake_safe_passive :
    (synTaken.next peerAck).endpoint.Opened ∧ (synTaken.next peerAck).greeted = true ∧
      ∀ p ∈ synTaken.endpoint.arriving peerAck,
        seqGt (synTaken.endpoint.inputChecked p).cb.sndUna
          (synTaken.endpoint.inputChecked p).cb.iss := by
  have safe := handshake_safe 0 0 0 Env.zero [.accept 0, peerSyn] (by decide +kernel)
  rw [← synTaken] at safe
  have facts : synTaken.Plain peerAck ∧ ¬ synTaken.endpoint.Opened ∧
      (synTaken.next peerAck).endpoint.Opened ∧ (synTaken.next peerAck).greeted = true ∧
      ∀ p ∈ synTaken.endpoint.arriving peerAck, (synTaken.endpoint.inputChecked p).Opened := by
    decide +kernel
  generalize synTaken = h at safe facts ⊢
  obtain ⟨plain, shut, opened, greeted, opens⟩ := facts
  exact ⟨opened, greeted, fun p here =>
    (((safe.2 peerAck plain).2 p here).1 shut (opens p here)).2.1⟩

/-- A SYN that acknowledges the number ours will have. -/
def blindSyn : Event :=
  .datagram (UdtHdr.mk 0 (UdtHdr.TH_SYN ||| UdtHdr.TH_ACK) 4000 0 20 100 0 0) []

/-- Data is taken in LISTEN; an acknowledgement of everything, sent twice, opens a connection from
SYN_SENT without any SYN; and `blindSyn` opens one from LISTEN with nothing acknowledged. -/
theorem opened_without_handshake :
    let taken := [.accept 0, strayData].foldl next ⟨.init 0 0 0 Env.zero, false⟩
    let unsynced := [.connect 0, peerAck, peerAck].foldl next ⟨.init 0 0 0 Env.zero, false⟩
    let blind := [.accept 0, blindSyn].foldl next ⟨.init 0 0 0 Env.zero, false⟩
    (taken.greeted = false ∧ taken.endpoint.cb.rcvNxt = 2 ∧
        totalLen taken.endpoint.sk.rcvBuf.pkts = 2) ∧
      (unsynced.endpoint.cb.state = .established ∧ unsynced.greeted = false) ∧
      blind.endpoint.cb.state = .established ∧
        blind.endpoint.cb.sndUna = blind.endpoint.cb.iss := by
  decide +kernel

end Handshake

end UdtBoost
