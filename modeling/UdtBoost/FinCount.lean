import UdtBoost.Intake
import UdtBoost.Sent

/-! The peer's FIN in `m_rcv_nxt`. `input` looks for it at the back of `rcv_buf`, so it comes to
`handle_fin` with every packet that arrives while the FIN is unread, and the states named in
`TCPS_HAVERCVDFIN` are to keep it from being counted again. LAST_ACK is not among them. -/
namespace UdtBoost

namespace TcpState

/-- The peer's FIN has been processed, and the connection is still there. -/
def pastFin (q : TcpState) : Prop := q.haveRcvdFin = true ∨ q = lastAck

instance (q : TcpState) : Decidable q.pastFin := inferInstanceAs (Decidable (_ ∨ _))

theorem pastFin_acked {q : TcpState} {sentfin : Bool} (past : (q.acked sentfin).pastFin) :
    q.pastFin := by
  cases q <;> cases sentfin <;> revert past <;> decide

end TcpState

namespace Endpoint

variable {s t : Endpoint} {p : UdtPacket} {e : Event}

/-- What `TCP_REASS` moves to `rcv_buf` is next in sequence, and counted. -/
theorem stored_appends (s : Endpoint) (p : UdtPacket) : ∃ run,
    (s.stored p).sk.rcvBuf.pkts = s.sk.rcvBuf.pkts ++ run ∧
      (s.stored p).cb.rcvNxt = s.cb.rcvNxt + BitVec.ofNat 32 (totalLen run) ∧
      Contiguous s.cb.rcvNxt run ∧ ∀ q ∈ run, q ∈ p :: s.sk.rcvBuf.reasmPkts := by
  have none : ∃ run, s.sk.rcvBuf.pkts = s.sk.rcvBuf.pkts ++ run ∧
      s.cb.rcvNxt = s.cb.rcvNxt + BitVec.ofNat 32 (totalLen run) ∧
      Contiguous s.cb.rcvNxt run ∧ ∀ q ∈ run, q ∈ p :: s.sk.rcvBuf.reasmPkts :=
    ⟨[], by simp, by simp, trivial, by simp⟩
  unfold stored
  split
  case isFalse => exact none
  rcases s.TCP_REASS_spec p with unstored | ⟨below, above, run, kept, stored⟩
  · obtain ⟨flags, _, _, result⟩ := unstored.result
    rw [result]
    exact none
  · obtain ⟨flags, _, _, result⟩ := stored.result
    rw [result]
    refine ⟨run, rfl, rfl, stored.contiguous, fun q member => ?_⟩
    have queued : q ∈ below ++ p :: above := by
      rw [stored.split]
      exact List.mem_append_left _ member
    rw [stored.queue]
    simp only [List.mem_append, List.mem_cons] at queued ⊢
    tauto

/-- A run of packets without payload moves nothing. -/
theorem totalLen_of_empty {nxt : Word} {run : List UdtPacket} (contiguous : Contiguous nxt run)
    (empty : ∀ q ∈ run, q.hdr.seq = nxt → q.hdr.len = 0) : totalLen run = 0 := by
  induction run with
  | nil => rfl
  | cons q run ih =>
      obtain ⟨starts, later⟩ := contiguous
      obtain ⟨first, others⟩ := List.forall_mem_cons.mp empty
      have none := first starts
      rw [none] at later
      rw [totalLen_cons, none, ih (by simpa using later) others]
      rfl

/-- The payload bytes that `input` appends to `rcv_buf` with the packet. -/
def appends (s : Endpoint) (p : UdtPacket) : Nat :=
  totalLen (s.inputChecked p).sk.rcvBuf.pkts - totalLen s.sk.rcvBuf.pkts

theorem totalLen_queued (s : Endpoint) :
    totalLen s.sk.rcvBuf.pkts = (s.intake.queued.map (·.len.toNat)).sum := by
  simp [totalLen, intake, Function.comp_def]

theorem reassembled_appends (s : Endpoint) (p : UdtPacket) : ∃ run,
    totalLen (s.reassembled p).sk.rcvBuf.pkts = totalLen s.sk.rcvBuf.pkts + totalLen run ∧
      (s.reassembled p).cb.rcvNxt = (s.synced p).cb.rcvNxt + BitVec.ofNat 32 (totalLen run) ∧
      Contiguous (s.synced p).cb.rcvNxt run ∧
      ∀ q ∈ run, q ∈ p.counted :: (s.synced p).sk.rcvBuf.reasmPkts := by
  obtain ⟨run, pkts, nxt, contiguous, known⟩ := (s.synced p).stored_appends p.counted
  have queued : (s.synced p).intake.queued = s.intake.queued := by
    rw [(s.synced_intake p).1]
    split <;> rfl
  refine ⟨run, ?_, nxt, contiguous, known⟩
  change totalLen ((s.synced p).stored p.counted).sk.rcvBuf.pkts = _
  rw [pkts, totalLen_append, totalLen_queued, queued, totalLen_queued s]

theorem synced_same (s : Endpoint) (p : UdtPacket) : (s.synced p).sk.rcvBuf = s.sk.rcvBuf ∧
    (s.cb.state ≠ .listen →
      (s.synced p).cb.sndUna = s.cb.sndUna ∧ (s.synced p).cb.sndMax = s.cb.sndMax) := by
  obtain ⟨_, _, _, _, _, _, _, before⟩ := s.entered_eq p
  have entered : (s.entered p).sk.rcvBuf = s.sk.rcvBuf ∧ (s.entered p).cb.state = s.cb.state ∧
      (s.entered p).cb.sndUna = s.cb.sndUna ∧ (s.entered p).cb.sndMax = s.cb.sndMax := by
    rw [before]
    exact ⟨rfl, rfl, rfl, rfl⟩
  obtain ⟨rcvBuf, state, una, max⟩ := entered
  unfold synced
  split
  · obtain ⟨_, _, _, result⟩ := (s.entered p).handleSyn_eq p
    rw [result, ← rcvBuf, ← state, ← una, ← max]
    split
    · exact ⟨rfl, fun talks => by rw [if_neg talks]; exact ⟨rfl, rfl⟩⟩
    · exact ⟨rfl, fun _ => ⟨rfl, rfl⟩⟩
  · exact ⟨rcvBuf, fun _ => ⟨una, max⟩⟩

/-- A FIN is at the back of `rcv_buf` or may get there with the packet, and what the packet acknowledges
was sent. -/
def finWaits (s : Endpoint) (p : UdtPacket) : Prop :=
  (s.sk.rcvBuf.fin = true ∨ ∃ q ∈ p :: s.sk.rcvBuf.reasmPkts, hasFin q.hdr.flags = true) ∧
    (hasAck p.hdr.flags = true → s.cb.state ≠ .listen →
      ¬ seqLt p.hdr.ack s.cb.sndUna ∧ ¬ seqGt p.hdr.ack s.cb.sndMax)

instance (s : Endpoint) (p : UdtPacket) : Decidable (s.finWaits p) :=
  inferInstanceAs (Decidable (_ ∧ _))

theorem comesToFin_waits (comes : s.comesToFin p) : s.finWaits p := by
  obtain ⟨_, _, fin, passed⟩ := comes
  obtain ⟨rcvBuf, numbers⟩ := s.synced_same p
  constructor
  · obtain ⟨run, pkts, _, _, known⟩ := (s.synced p).stored_appends p.counted
    rw [rcvBuf] at pkts known
    have back : (s.reassembled p).sk.rcvBuf.pkts = s.sk.rcvBuf.pkts ++ run := pkts
    unfold UdtBuf.fin at fin ⊢
    rw [back, List.getLast?_append] at fin
    cases last : run.getLast? with
    | none =>
        rw [last] at fin
        exact .inl fin
    | some q =>
        rw [last] at fin
        right
        rcases List.mem_cons.mp (known q (List.mem_of_getLast? last)) with rfl | queued
        · exact ⟨p, List.mem_cons_self, p.counted_same.2.1 ▸ fin⟩
        · exact ⟨q, List.mem_cons_of_mem _ queued, fin⟩
  · intro isAck talks
    obtain ⟨una, max⟩ := numbers talks
    have let_through := passed isAck
    obtain ⟨_, _, _, _, _, _, stored⟩ := (s.synced p).stored_eq p.counted
    have una : (s.reassembled p).cb.sndUna = s.cb.sndUna := by rw [reassembled, stored]; exact una
    have max : (s.reassembled p).cb.sndMax = s.cb.sndMax := by rw [reassembled, stored]; exact max
    rw [← una, ← max, ← p.counted_same.1]
    unfold handleAck at let_through
    dsimp only at let_through
    split at let_through
    · contradiction
    split at let_through
    · contradiction
    · exact ⟨‹_›, ‹_›⟩

end Endpoint

/-- An endpoint, the payload bytes appended to `rcv_buf` since its SYN was accepted, and whether
`handle_fin` has run since. -/
structure Receipt where
  endpoint : Endpoint
  appended : Nat
  finned : Bool

namespace Receipt

def next (g : Receipt) (e : Event) : Receipt :=
  match g.endpoint.arriving e with
  | none => { g with endpoint := g.endpoint.step e }
  | some p =>
      let old := g.endpoint.synAccepted = (g.endpoint.inputChecked p).synAccepted
      { endpoint := g.endpoint.step e
        appended := (if old then g.appended else 0) + g.endpoint.appends p
        finned := (decide old && g.finned) || decide (g.endpoint.comesToFin p) }

/-- A packet comes to `handle_fin` again only in a state that keeps the FIN from being counted
again, and nothing that starts at `m_rcv_nxt` behind the FIN has payload. -/
def FinOnce (g : Receipt) (e : Event) : Prop :=
  ∀ p ∈ g.endpoint.arriving e, g.endpoint.takes p →
    (g.endpoint.comesToFin p → g.finned = true → g.endpoint.cb.TCPS_HAVERCVDFIN = true) ∧
    (g.endpoint.cb.state.pastFin → ∀ q ∈ p :: g.endpoint.sk.rcvBuf.reasmPkts,
      q.hdr.seq = g.endpoint.cb.rcvNxt → q.hdr.len = 0)

instance (g : Receipt) (e : Event) : Decidable (g.FinOnce e) :=
  inferInstanceAs (Decidable (∀ p ∈ g.endpoint.arriving e, _ → _ ∧ _))

/-- Where no FIN waits, none comes again. -/
theorem FinOnce.of_waits {g : Receipt} {e : Event}
    (apart : ∀ p ∈ g.endpoint.arriving e, g.endpoint.takes p →
      (g.endpoint.finWaits p → g.finned = true → g.endpoint.cb.TCPS_HAVERCVDFIN = true) ∧
      (g.endpoint.cb.state.pastFin → ∀ q ∈ p :: g.endpoint.sk.rcvBuf.reasmPkts,
        q.hdr.seq = g.endpoint.cb.rcvNxt → q.hdr.len = 0)) : g.FinOnce e := by
  intro p arrives taken
  obtain ⟨again, empty⟩ := apart p arrives taken
  exact ⟨fun comes => again (Endpoint.comesToFin_waits comes), empty⟩

/-- `m_rcv_nxt` counts what was appended and the FIN. -/
structure Counted (g : Receipt) : Prop where
  count : g.endpoint.synAccepted ≠ [] →
    g.endpoint.cb.rcvNxt - g.endpoint.cb.irs =
      BitVec.ofNat 32 (g.appended + if g.finned then 1 else 0)
  past : g.endpoint.cb.state.pastFin → g.finned = true

section Steps

variable {g : Receipt} {e : Event} {p : UdtPacket}

/-- A packet that is not taken leaves the numbers alone. -/
theorem inputChecked_refused {s : Endpoint} (refused : ¬ s.takes p) :
    (s.inputChecked p).intake = s.intake ∧ (s.inputChecked p).cb.state = s.cb.state ∧
      s.appends p = 0 ∧ ¬ s.comesToFin p := by
  obtain ⟨intake, state⟩ := s.inputChecked_intake p
  rw [if_neg refused] at intake state
  refine ⟨intake, state, ?_, fun fin => refused fin.1⟩
  rw [Endpoint.appends, Endpoint.totalLen_queued, Endpoint.totalLen_queued s, intake, Nat.sub_self]

/-- A packet that is taken adds its run, and the FIN where that is not yet counted. -/
theorem inputChecked_taken {s : Endpoint} (taken : s.takes p) : ∃ run,
    s.appends p = totalLen run ∧ Contiguous (s.synced p).cb.rcvNxt run ∧
      (∀ q ∈ run, q ∈ p.counted :: (s.synced p).sk.rcvBuf.reasmPkts) ∧
      (s.inputChecked p).cb.irs = (s.synced p).cb.irs ∧
      (s.inputChecked p).synAccepted = (s.synced p).synAccepted ∧
      (s.inputChecked p).cb.rcvNxt = (s.synced p).cb.rcvNxt + BitVec.ofNat 32 (totalLen run) +
        (if s.comesToFin p ∧ (s.synced p).cb.state.haveRcvdFin = false then 1 else 0) ∧
      ((s.inputChecked p).cb.state.pastFin → s.comesToFin p ∨ (s.synced p).cb.state.pastFin) := by
  obtain ⟨run, length, nxt, contiguous, known⟩ := s.reassembled_appends p
  have intake := Endpoint.taken_intake taken
  obtain ⟨irs, accepted, _⟩ := s.reassembled_unmoved p
  refine ⟨run, ?_, contiguous, known, (congrArg Intake.irs intake).trans irs,
    (congrArg Intake.synAccepted intake).trans accepted, ?_, fun past => ?_⟩
  · rw [Endpoint.appends, Endpoint.totalLen_queued, congrArg Intake.queued intake,
      ← Endpoint.totalLen_queued, length]
    exact Nat.add_sub_cancel_left _ _
  · rw [← nxt]
    exact congrArg Intake.rcvNxt intake
  · have state := (s.inputChecked_intake p).2
    rw [if_pos taken] at state
    by_cases fin : s.comesToFin p
    · exact .inl fin
    · right
      rw [state, if_neg fin, (s.finPoint_intake p).2] at past
      split at past
      · exact TcpState.pastFin_acked past
      · exact past

theorem counts_add {nxt irs one : Word} {run total : Nat}
    (sum : nxt - irs + BitVec.ofNat 32 run + one = BitVec.ofNat 32 total) :
    nxt + BitVec.ofNat 32 run + one - irs = BitVec.ofNat 32 total := by
  rw [← sum]
  bv_omega

/-- A packet is counted from the SYN on. -/
theorem inputChecked_counts {s : Endpoint} {n : Nat} {finned : Bool}
    (count : s.synAccepted ≠ [] →
      s.cb.rcvNxt - s.cb.irs = BitVec.ofNat 32 (n + if finned then 1 else 0))
    (past : s.cb.state.pastFin → finned = true)
    (once : s.takes p → s.comesToFin p → finned = true → s.cb.TCPS_HAVERCVDFIN = true) :
    let t := s.inputChecked p
    let old := s.synAccepted = t.synAccepted
    let finned' := (decide old && finned) || decide (s.comesToFin p)
    (t.synAccepted ≠ [] → t.cb.rcvNxt - t.cb.irs =
      BitVec.ofNat 32 ((if old then n else 0) + s.appends p + if finned' then 1 else 0)) ∧
      (t.cb.state.pastFin → finned' = true) := by
  intro t old finned'
  by_cases taken : s.takes p
  case neg =>
    obtain ⟨intake, state, none, noFin⟩ := inputChecked_refused taken
    have accepted : t.synAccepted = s.synAccepted := congrArg Intake.synAccepted intake
    have same : old := accepted.symm
    have nxt : t.cb.rcvNxt = s.cb.rcvNxt := congrArg Intake.rcvNxt intake
    have irs : t.cb.irs = s.cb.irs := congrArg Intake.irs intake
    have fin : finned' = finned := by simp [finned', same, noFin]
    rw [fin, if_pos same, none, nxt, irs, accepted]
    exact ⟨count, fun here => past (state ▸ here)⟩
  obtain ⟨run, length, _, _, irs, accepted, nxt, here⟩ := inputChecked_taken taken
  change t.cb.irs = _ at irs
  change t.synAccepted = _ at accepted
  change t.cb.rcvNxt = _ at nxt
  obtain ⟨synced, state⟩ := s.synced_intake p
  by_cases greeted : hasSyn p.hdr.flags = true ∧ s.greets
  · rw [if_pos greeted] at synced state
    have fresh : ¬ old := by
      change ¬ s.synAccepted = t.synAccepted
      rw [accepted, show (s.synced p).synAccepted = _ from congrArg Intake.synAccepted synced]
      simp
    have start : (s.synced p).cb.rcvNxt = p.hdr.seq + 1 := congrArg Intake.rcvNxt synced
    have first : (s.synced p).cb.irs = p.hdr.seq + 1 := congrArg Intake.irs synced
    have fin : finned' = decide (s.comesToFin p) := by simp [finned', fresh]
    have one : (if s.comesToFin p ∧ TcpState.synReceived.haveRcvdFin = false then 1 else 0 : Word) =
        BitVec.ofNat 32 (if decide (s.comesToFin p) = true then 1 else 0) := by
      by_cases comes : s.comesToFin p <;> simp [comes, TcpState.haveRcvdFin]
    refine ⟨fun _ => ?_, fun past => ?_⟩
    · rw [nxt, irs, start, first, fin, if_neg fresh, length, state, one]
      refine counts_add ?_
      rw [BitVec.sub_self, BitVec.zero_add, Nat.zero_add, BitVec.ofNat_add]
    · rw [fin, decide_eq_true_eq]
      refine (here past).resolve_right ?_
      rw [state]
      decide
  · rw [if_neg greeted] at synced state
    have same : old := by
      change s.synAccepted = t.synAccepted
      rw [accepted]
      exact (congrArg Intake.synAccepted synced).symm
    have start : (s.synced p).cb.rcvNxt = s.cb.rcvNxt := congrArg Intake.rcvNxt synced
    have first : (s.synced p).cb.irs = s.cb.irs := congrArg Intake.irs synced
    have fin : finned' = (finned || decide (s.comesToFin p)) := by simp [finned', same]
    rw [state] at nxt here
    -- the FIN is counted with the first call of `handle_fin` and with no other
    have one : BitVec.ofNat 32 (if finned = true then 1 else 0) +
        (if s.comesToFin p ∧ s.cb.state.haveRcvdFin = false then 1 else 0 : Word) =
          BitVec.ofNat 32 (if (finned || decide (s.comesToFin p)) = true then 1 else 0) := by
      cases before : finned with
      | true =>
          have stays : ¬(s.comesToFin p ∧ s.cb.state.haveRcvdFin = false) := fun both =>
            Bool.noConfusion (both.2.symm.trans (once taken both.1 before))
          simp [stays]
      | false =>
          have open_ : s.cb.state.haveRcvdFin = false := by
            rw [Bool.eq_false_iff]
            exact fun had => Bool.noConfusion (before.symm.trans (past (.inl had)))
          by_cases comes : s.comesToFin p <;> simp [comes, open_]
    refine ⟨fun some_ => ?_, fun late => ?_⟩
    · have before := count (by rw [same]; exact some_)
      rw [nxt, irs, start, first, fin, if_pos same, length]
      refine counts_add ?_
      rw [before, BitVec.ofNat_add, BitVec.ofNat_add, BitVec.ofNat_add, ← one]
      ac_rfl
    · rw [fin, Bool.or_eq_true, decide_eq_true_eq]
      exact (here late).elim .inr fun before => .inl (past before)

theorem next_endpoint (g : Receipt) (e : Event) : (g.next e).endpoint = g.endpoint.step e := by
  unfold next
  split <;> rfl

/-- No SYN is accepted after the FIN. -/
theorem refusesSyn_of_past {s : Endpoint} (past : s.cb.state.pastFin) (p : UdtPacket) :
    ((s.entered p).handleSyn p).1 ≠ false := by
  rw [← s.entered_state p] at past
  unfold Endpoint.handleSyn
  dsimp only
  cases state : (s.entered p).cb.state <;> rw [state] at past <;>
    first | exact Bool.noConfusion | exact absurd past (by decide)

theorem Counted.next (counted : g.Counted) (once : g.FinOnce e) : (g.next e).Counted := by
  cases here : g.endpoint.arriving e with
  | none =>
      have path := Endpoint.local_path here
      obtain ⟨irs, nxt, accepted⟩ := path.local
      have past : (g.endpoint.step e).cb.state.pastFin → g.endpoint.cb.state.pastFin := by
        refine path.invariant (I := fun v => v.state.pastFin → g.endpoint.view.state.pastFin) id ?_
        intro v a w before here step after
        have moved := (step.local here).2.2.2
        rcases moved with same | closed | ⟨_, ⟨moved, _⟩ | ⟨moved, _⟩⟩ | ⟨_, moved⟩ | ⟨waiting, _⟩
        · exact before (same ▸ after)
        · rw [closed] at after
          exact absurd after (by decide)
        · rw [moved] at after
          exact absurd after (by decide)
        · rw [moved] at after
          exact absurd after (by decide)
        · rw [moved] at after
          exact absurd after (by decide)
        · exact before (by rw [waiting]; decide)
      have result : g.next e = { g with endpoint := g.endpoint.step e } := by rw [Receipt.next, here]
      rw [result]
      constructor
      · change (g.endpoint.step e).synAccepted ≠ [] → (g.endpoint.step e).cb.rcvNxt -
          (g.endpoint.step e).cb.irs = _
        rw [show (g.endpoint.step e).synAccepted = _ from accepted,
          show (g.endpoint.step e).cb.rcvNxt = _ from nxt, show (g.endpoint.step e).cb.irs = _ from irs]
        exact counted.count
      · exact fun after => counted.past (past after)
  | some p =>
      have path := Endpoint.arriving_path here
      obtain ⟨irs, nxt, accepted⟩ := path.local_of_tau.local
      have state := (ViewPath.tau_state path).2
      obtain ⟨count, past⟩ := inputChecked_counts counted.count counted.past
        fun taken => (once p here taken).1
      constructor
      · rw [Receipt.next, here]
        change (g.endpoint.step e).synAccepted ≠ [] → (g.endpoint.step e).cb.rcvNxt -
          (g.endpoint.step e).cb.irs = _
        rw [show (g.endpoint.step e).synAccepted = _ from accepted,
          show (g.endpoint.step e).cb.rcvNxt = _ from nxt, show (g.endpoint.step e).cb.irs = _ from irs]
        exact count
      · rw [Receipt.next, here]
        intro after
        refine past ?_
        rcases state with same | closed
        · rwa [show (g.endpoint.step e).cb.state = (g.endpoint.inputChecked p).cb.state from same]
            at after
        · rw [show (g.endpoint.step e).cb.state = _ from closed] at after
          exact absurd after (by decide)

/-- After the FIN, what arrives does not advance `m_rcv_nxt`. -/
theorem Counted.still (counted : g.Counted) (once : g.FinOnce e)
    (past : g.endpoint.cb.state.pastFin) :
    (g.endpoint.step e).cb.rcvNxt = g.endpoint.cb.rcvNxt := by
  cases here : g.endpoint.arriving e with
  | none => exact (Endpoint.local_path here).local.2.1
  | some p =>
      refine (Endpoint.arriving_path here).local_of_tau.local.2.1.trans ?_
      change (g.endpoint.inputChecked p).cb.rcvNxt = g.endpoint.cb.rcvNxt
      by_cases taken : g.endpoint.takes p
      case neg => exact congrArg Intake.rcvNxt (inputChecked_refused taken).1
      obtain ⟨again, empty⟩ := once p here taken
      obtain ⟨run, _, contiguous, known, _, _, nxt, _⟩ := inputChecked_taken taken
      have plain : ¬ hasSyn p.hdr.flags = true := fun isSyn => refusesSyn_of_past past p (taken.2 isSyn)
      have stays : ¬(hasSyn p.hdr.flags = true ∧ g.endpoint.greets) := fun both => plain both.1
      obtain ⟨synced, state⟩ := g.endpoint.synced_intake p
      rw [if_neg stays] at synced state
      have start : (g.endpoint.synced p).cb.rcvNxt = g.endpoint.cb.rcvNxt :=
        congrArg Intake.rcvNxt synced
      have whole : p.counted = p := if_neg plain
      rw [start] at contiguous nxt
      have none : totalLen run = 0 := by
        refine Endpoint.totalLen_of_empty contiguous fun q member starts => ?_
        have waiting : (g.endpoint.synced p).sk.rcvBuf.reasmPkts.map UdtPacket.hdr =
            g.endpoint.sk.rcvBuf.reasmPkts.map UdtPacket.hdr := congrArg Intake.waiting synced
        have hdr : q.hdr ∈ (p :: g.endpoint.sk.rcvBuf.reasmPkts).map UdtPacket.hdr := by
          have here := List.mem_map_of_mem (f := UdtPacket.hdr) (known q member)
          rwa [List.map_cons, whole, waiting] at here
        obtain ⟨r, queued, same⟩ := List.mem_map.mp hdr
        rw [← same] at starts ⊢
        exact empty past r queued starts
      have had : g.endpoint.comesToFin p → g.endpoint.cb.state.haveRcvdFin = true := fun comes =>
        again comes (counted.past past)
      have uncounted : ¬(g.endpoint.comesToFin p ∧ (g.endpoint.synced p).cb.state.haveRcvdFin = false) := by
        rintro ⟨comes, open_⟩
        rw [state, had comes] at open_
        contradiction
      rw [nxt, none, if_neg uncounted]
      simp

end Steps

/-- In every run in which the FIN comes to `handle_fin` only as described, `m_rcv_nxt` is ahead of
`m_irs` by the bytes appended and by one for the FIN, and after the FIN no event moves it. -/
theorem fin_counted_once (fack sndSeq rcvSeq : Word) (env : Env) (es : List Event)
    (once : Trace.Meets next FinOnce ⟨.init fack sndSeq rcvSeq env, 0, false⟩ es) :
    let g := es.foldl next ⟨.init fack sndSeq rcvSeq env, 0, false⟩
    (g.endpoint.synAccepted ≠ [] → g.endpoint.cb.rcvNxt - g.endpoint.cb.irs =
      BitVec.ofNat 32 (g.appended + if g.finned then 1 else 0)) ∧
      ∀ e, g.FinOnce e → g.endpoint.cb.state.pastFin →
        (g.next e).endpoint.cb.rcvNxt = g.endpoint.cb.rcvNxt := by
  have counted := once.invariant (I := Counted) 
    ⟨fun some_ => absurd rfl some_, fun past => absurd (show TcpState.closed.pastFin from past) (by decide)⟩
    fun g e counted once => counted.next once
  refine ⟨counted.count, fun e once past => ?_⟩
  rw [next_endpoint]
  exact counted.still once past

/-- The peer's acknowledgement after its FIN; ours is not acknowledged. -/
def afterFin : Event := .datagram (UdtHdr.mk 0 UdtHdr.TH_ACK 4000 0 20 104 1 0) []

/-- A passive open, two bytes with a FIN behind them, and one more packet. -/
def finished : List Event :=
  [.accept 0, .datagram (UdtHdr.mk 0 UdtHdr.TH_SYN 4000 0 20 100 0 0) [],
    .datagram (UdtHdr.mk 0 UdtHdr.TH_ACK 4000 0 20 101 1 0) [],
    .datagram (UdtHdr.mk 0 (UdtHdr.TH_FIN ||| UdtHdr.TH_ACK) 4000 2 20 101 1 0) [1, 2], afterFin]

theorem fin_counted_once_finished :
    let g := finished.foldl next ⟨.init 0 0 0 Env.zero, 0, false⟩
    g.endpoint.cb.rcvNxt - g.endpoint.cb.irs = BitVec.ofNat 32 (2 + 1) ∧
      (g.next afterFin).endpoint.cb.rcvNxt = g.endpoint.cb.rcvNxt := by
  have counted := fin_counted_once 0 0 0 Env.zero finished (by decide +kernel)
  have tally : (finished.foldl next ⟨.init 0 0 0 Env.zero, 0, false⟩).endpoint.synAccepted ≠ [] ∧
      (finished.foldl next ⟨.init 0 0 0 Env.zero, 0, false⟩).appended = 2 ∧
      (finished.foldl next ⟨.init 0 0 0 Env.zero, 0, false⟩).finned = true ∧
      (finished.foldl next ⟨.init 0 0 0 Env.zero, 0, false⟩).endpoint.cb.state.pastFin := by
    decide +kernel
  have once : (finished.foldl next ⟨.init 0 0 0 Env.zero, 0, false⟩).FinOnce afterFin :=
    .of_waits (by decide +kernel)
  dsimp only at counted ⊢
  generalize finished.foldl next ⟨.init 0 0 0 Env.zero, 0, false⟩ = g at counted tally once ⊢
  obtain ⟨synced, appended, finned, past⟩ := tally
  have count := counted.1 synced
  rw [appended, finned] at count
  exact ⟨count, counted.2 afterFin once past⟩

/-- In LAST_ACK the FIN, still unread, is counted again with the next packet. -/
theorem last_ack_counts_again :
    let g := (finished ++ [.shutdown 0, afterFin]).foldl next ⟨.init 0 0 0 Env.zero, 0, false⟩
    g.endpoint.cb.state = .lastAck ∧ g.appended = 2 ∧ g.finned = true ∧
      g.endpoint.synAccepted = [100] ∧ g.endpoint.cb.rcvNxt - g.endpoint.cb.irs = 4 := by
  decide +kernel

end Receipt

end UdtBoost
