import UdtBoost.EventPath

/-! Invariants of runs. A property of the view that every step keeps holds in every state of
a run; the condition on the number that a fast retransmission puts back may itself rest on
the property. Two flags are down between events. -/
namespace UdtBoost

variable {B C : View → Act → Prop} {R : View → Word → Prop} {I : View → Prop}

/-- The labels of what `input` does with a packet. -/
def Act.OfPacket : Act → Prop
  | .tau | .restore _ | .syn _ | .store _ | .ackAll _ | .ack _ | .sack .. | .rewrite .. | .fin => True
  | _ => False

/-- The condition `B`, and `R` of a number that a fast retransmission puts back. -/
def Legal (B : View → Act → Prop) (R : View → Word → Prop) (v : View) (a : Act) : Prop :=
  B v a ∧ ∀ nxt, a = .restore nxt → R v nxt

theorem Legal.of {v : View} {a : Act} (met : B v a) (other : ∀ nxt, a ≠ .restore nxt) :
    Legal B R v a :=
  ⟨met, fun nxt same => absurd same (other nxt)⟩

/-- What makes `R` hold of a number put back: the property `I` where it was read. -/
structure Restores (B : View → Act → Prop) (R : View → Word → Prop) (I : View → Prop) : Prop where
  keep : ∀ v a w, I v → Legal B R v a → Step v a w → I w
  restore : ∀ u w, I u → ViewPath OnlyTau { u with sndNxt := u.sndUna } w → R w u.sndNxt

namespace Endpoint

theorem AckOk.legal {s : Endpoint} {p : UdtPacket} (ok : AckOk B s p) (rule : Restores B R I)
    (holds : I s.view) : AckOk (Legal B R) s p where
  free done v := .of (ok.free done v) (by simp)
  ackAll all := .of (ok.ackAll all) (by simp)
  ack v := .of (ok.ack v) (by simp)
  sack v block member := .of (ok.sack v block member) (by simp)
  rewrite v := .of (ok.rewrite v) (by simp)
  restore done u w path sent := by
    refine ⟨ok.restore done u w (path.mono fun _ _ met => met.1) sent, ?_⟩
    intro nxt same
    injection same with same
    rw [← same]
    exact rule.restore u w (path.invariant holds rule.keep) sent

theorem SegmentOk.legal {s : Endpoint} {p : UdtPacket} (ok : SegmentOk B s p)
    (rule : Restores B R I) (holds : I s.view) : SegmentOk (Legal B R) s p where
  store needs := .of (ok.store needs) (by simp)
  ack flag := by
    have path := s.stored_path (C := Legal B R) p fun needs => .of (ok.store needs) (by simp)
    exact (ok.ack flag).legal rule (path.invariant holds rule.keep)
  finAck fin flag goes := .of (ok.finAck fin flag goes) (by simp)
  finPlain fin flag := .of (ok.finPlain fin flag) (by simp)

theorem PacketOk.legal {s : Endpoint} {p : UdtPacket} (ok : PacketOk B s p)
    (rule : Restores B R I) (holds : I s.view) : PacketOk (Legal B R) s p where
  free v := .of (ok.free v) (by simp)
  ack flag v := .of (ok.ack flag v) (by simp)
  predicted admitted noSyn noFin bare := .of (ok.predicted admitted noSyn noFin bare) (by simp)
  plain admitted noSyn x view := (ok.plain admitted noSyn x view).legal rule (by rwa [view])
  syn admitted flag := .of (ok.syn admitted flag) (by simp)
  synced admitted flag x view taken := by
    have start : B x.view (.syn p) := by
      rw [view]
      exact ok.syn admitted flag
    have path := x.handleSyn_path (C := Legal B R) p (.of start (by simp))
    exact (ok.synced admitted flag x view taken).legal rule
      (path.invariant (by rwa [view]) rule.keep)

theorem EventOk.legal {s : Endpoint} {e : Event} (ok : EventOk B s e) (rule : Restores B R I)
    (holds : I s.view) : EventOk (Legal B R) s e := by
  cases e with
  | packet hdr mem n => exact fun buffer pending whole => (ok buffer pending whole).legal rule holds
  | connect h => exact .of ok (by simp)
  | accept h => exact .of ok (by simp)
  | slowTimo => exact fun v on => .of (ok v on) (by simp)
  | send op => exact .of ok (by simp)
  | shutdown h => exact .of ok (by simp)
  | setSndBuf v => exact .of ok (by simp)
  | setRcvBuf v => exact .of ok (by simp)
  | close => exact fun v => .of (ok v) (by simp)
  | _ => trivial

section Unrestricted

variable (all : ∀ v a, a.OfPacket → C v a)
include all

theorem AckOk.of_all {s : Endpoint} {p : UdtPacket} : AckOk C s p := by
  refine ⟨?_, ?_, ?_, ?_, ?_, ?_⟩
  all_goals intros; exact all _ _ trivial

theorem SegmentOk.of_all {s : Endpoint} {p : UdtPacket} : SegmentOk C s p := by
  refine ⟨?_, fun _ => AckOk.of_all all, ?_, ?_⟩
  all_goals intros; exact all _ _ trivial

theorem PacketOk.of_all {s : Endpoint} {p : UdtPacket} : PacketOk C s p := by
  refine ⟨?_, ?_, ?_, fun _ _ _ _ => SegmentOk.of_all all, ?_,
    fun _ _ _ _ _ => SegmentOk.of_all all⟩
  all_goals intros; exact all _ _ trivial

end Unrestricted

theorem EventOk.of_all {s : Endpoint} {e : Event}
    (all : ∀ v a, (∀ on, a ≠ .force on) → a ≠ .close → C v a)
    (force : e = .slowTimo → ∀ v on, C v (.force on)) (close : e = .close → ∀ v, C v .close) :
    EventOk C s e := by
  cases e with
  | packet hdr mem n =>
      refine fun _ _ _ => PacketOk.of_all fun v a packet => all v a ?_ ?_
      · rintro on rfl
        exact packet
      · rintro rfl
        exact packet
  | slowTimo => exact force rfl
  | close => exact close rfl
  | _ => first | exact all _ _ (by simp) (by simp) | trivial

end Endpoint

/-- Unlabelled steps leave the force flag alone. -/
theorem ViewPath.force_eq {v w : View} (path : ViewPath OnlyTau v w) : w.force = v.force := by
  refine path.invariant (I := fun u => u.force = v.force) rfl ?_
  intro u a x same tau step
  obtain rfl : a = .tau := tau
  cases step with
  | transmit _ _ sends =>
      rw [sends.moved]
      exact same
  | _ => exact same

/-- Only storing a packet raises the flag that its buffer was kept. -/
theorem ViewPath.unconsumed {v w : View} (path : ViewPath C v w)
    (nothing : ∀ v p, ¬ C v (.store p)) (down : v.packetConsumed = false) :
    w.packetConsumed = false := by
  refine path.invariant (I := fun u => u.packetConsumed = false) down ?_
  intro u a x same met step
  cases step with
  | transmit _ _ sends =>
      rw [sends.moved]
      exact same
  | store => exact absurd met (nothing _ _)
  | kept => rfl
  | _ => exact same

namespace Endpoint

/-- No probe is being forced out, and no buffer was kept. -/
structure Calm (s : Endpoint) : Prop where
  force : s.cb.force = false
  consumed : s.cb.flags.packetConsumed = false

theorem slowPersist_force (s : Endpoint) (down : s.cb.force = false) :
    s.slowPersist.cb.force = false := by
  unfold slowPersist
  split
  · exact down
  · dsimp only
    split
    · rfl
    · exact down

theorem handleSlowTimo_force (s : Endpoint) (down : s.cb.force = false) :
    s.handleSlowTimo.cb.force = false := by
  have first : s.slowRexmt.cb.force = false := (s.slowRexmt_path.force_eq).trans down
  have second := s.slowRexmt.slowPersist_force first
  have third := (s.slowRexmt.slowPersist.slowKeep_path.force_eq).trans second
  exact (s.slowRexmt.slowPersist.slowKeep.slow2msl_path.force_eq).trans third

theorem step_force (s : Endpoint) (e : Event) (down : s.cb.force = false) :
    (s.step e).cb.force = false := by
  by_cases slow : e = .slowTimo
  · subst slow
    rw [step, slowTimer]
    split
    · exact s.handleSlowTimo_force down
    · exact down
  · have path := s.step_path (C := fun _ a => ∀ on, a ≠ .force on) e (by simp)
      (EventOk.of_all (fun _ _ other _ => other) (fun same => absurd same slow) (by simp))
    refine path.invariant (I := fun v => v.force = false) down ?_
    intro v a w same met step
    cases step with
    | transmit _ _ sends =>
        rw [sends.moved]
        exact same
    | force => exact absurd rfl (met _)
    | _ => exact same

theorem input_consumed (s : Endpoint) (p : UdtPacket) (n : Nat)
    (down : s.cb.flags.packetConsumed = false) :
    (s.input p n).2.cb.flags.packetConsumed = false := by
  rw [input]
  split
  · exact down
  · split
    · exact down
    · dsimp only
      split
      · exact down
      · generalize commitNotifies _ = x
        unfold pktConsumed
        cases up : x.cb.flags.packetConsumed <;> simp [up]

theorem doReceive_consumed (s : Endpoint) :
    s.doReceive.cb.flags.packetConsumed = s.cb.flags.packetConsumed := by
  unfold doReceive
  split
  · cases s.sk.rcvPkt <;> rfl
  · rfl

theorem handleReceive_consumed (s : Endpoint) (hdr : UdtHdr) (mem : List UChar) (n : Nat)
    (down : s.cb.flags.packetConsumed = false) :
    (s.handleReceive hdr mem n).cb.flags.packetConsumed = false := by
  unfold handleReceive
  split
  · exact down
  · cases s.sk.rcvPkt with
    | none => exact down
    | some buffer =>
        have after := s.input_consumed ⟨hdr, mem, buffer⟩ n down
        dsimp only
        generalize s.input ⟨hdr, mem, buffer⟩ n = result at after ⊢
        obtain ⟨_ | _, x⟩ := result
        · exact x.doReceive_consumed.trans after
        · exact (doReceive_consumed _).trans after

theorem step_consumed (s : Endpoint) (e : Event) (down : s.cb.flags.packetConsumed = false) :
    (s.step e).cb.flags.packetConsumed = false := by
  have others : (∀ hdr mem n, e ≠ .packet hdr mem n) →
      EventOk (fun _ a => ∀ p, a ≠ .store p) s e := by
    intro other
    cases e with
    | packet hdr mem n => exact absurd rfl (other hdr mem n)
    | _ => first | trivial | simp [EventOk]
  cases e with
  | packet hdr mem n => exact s.handleReceive_consumed hdr mem n down
  | _ =>
      refine (s.step_path _ (by simp) (others (by simp))).unconsumed ?_ down
      intro v p store
      exact store p rfl

theorem step_calm (s : Endpoint) (e : Event) (calm : s.Calm) : (s.step e).Calm :=
  ⟨s.step_force e calm.force, s.step_consumed e calm.consumed⟩

theorem init_calm (fack sndSeq rcvSeq : Word) (env : Env) :
    (init fack sndSeq rcvSeq env).Calm := ⟨rfl, rfl⟩

/-- A property kept by every step, under a condition that every event of the run meets. -/
theorem run_invariant {P : Endpoint → Event → Prop} {s : Endpoint} {es : List Event}
    (met : Trace.Meets step P s es) (calm : s.Calm) (holds : I s.view) (free : ∀ v, C v .tau)
    (ok : ∀ s e, s.Calm → I s.view → P s e → EventOk C s e)
    (keep : ∀ v a w, I v → C v a → Step v a w → I w) : (s.run es).Calm ∧ I (s.run es).view := by
  refine met.invariant (I := fun s => s.Calm ∧ I s.view) ⟨calm, holds⟩ ?_
  intro s e inv allowed
  exact ⟨s.step_calm e inv.1,
    (s.step_path e free (ok s e inv.1 inv.2 allowed)).invariant inv.2 keep⟩

/-- A property whose only condition is on the number put back. -/
theorem run_invariant_restores {s : Endpoint} (es : List Event) (calm : s.Calm)
    (rule : Restores (fun _ _ => True) R I) (holds : I s.view) :
    (s.run es).Calm ∧ I (s.run es).view := by
  refine run_invariant (P := fun _ _ => True) (C := Legal (fun _ _ => True) R)
    (Trace.Meets.trivial_of es fun _ _ => trivial) calm holds (fun v => .of trivial (by simp)) ?_
    rule.keep
  intro s e _ inv _
  exact (EventOk.of_all (fun _ _ _ _ => trivial) (fun _ _ _ => trivial) fun _ _ => trivial).legal rule inv

end Endpoint

end UdtBoost
