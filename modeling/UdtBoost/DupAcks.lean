import UdtBoost.Outcome

/-! Duplicate acknowledgements. `m_dupacks` counts those of the present `m_snd_una` as long as
whatever moves `m_snd_una` finds it at zero or sets it to zero. -/
namespace UdtBoost

/-- Blocks of `handle_ack`, and those that start a connection. -/
def Tag.Acking : Tag → Prop
  | .input | .syn _ | .ack _ | .fastRexmt _ | .connect _ => True
  | _ => False

namespace Endpoint

variable {s t : Endpoint} {p : UdtPacket} {e : Event}

/-- The number acknowledged, and how often it was acknowledged again. -/
def counters (s : Endpoint) : Word × Half := (s.cb.sndUna, s.cb.dupacks)

theorem counters_of_outside (same : t.outside = s.outside) : t.counters = s.counters := by
  have fields : t.outside.counters = s.outside.counters := congrArg counters same
  exact fields

theorem output_counters (s : Endpoint) : s.output.counters = s.counters :=
  counters_of_outside s.output_outside

theorem outputData_counters (s : Endpoint) : s.outputData.counters = s.counters := by
  unfold outputData
  split
  · exact s.output_counters
  · rfl

theorem block_counters {a : Tag} (block : Block s a t) (whole : a ≠ .disconnect)
    (plain : ¬ a.Acking) : t.counters = s.counters := by
  cases block with
  | output block => exact counters_of_outside block.outside
  | read =>
      obtain ⟨_, _, _, _, _, _, result⟩ := s.recvDataLoop_spec s.sk.recvOps
      rw [result]
      rfl
  | @delayed n =>
      obtain ⟨_, _, _, _, result⟩ :=
        ({ s with sk.delayWaits := n } : Endpoint).delayedLoop_spec s.sk.recvOps
      rw [result]
      rfl
  | notifySends =>
      rw [notifySends_eq]
      rfl
  | notifyHandlers =>
      rw [postHandlers_eq]
      rfl
  | disconnect => exact absurd rfl whole
  | @reass p =>
      obtain ⟨_, _, _, _, _, _, result⟩ := s.TCP_REASS_eq p
      rw [result]
      rfl
  | ackAll =>
      obtain ⟨_, _, _, _, _, _, _, _, _, _, _, _, _, _, result⟩ := s.updateAckState_eq
      rw [result]
      rfl
  | sacked =>
      rw [dropSndPkt_eq]
      rfl
  | @window p =>
      obtain ⟨_, _, result⟩ := s.ackWindow_eq (p.hdr.win.setWidth 32)
      rw [result]
      rfl
  | fin =>
      obtain ⟨_, _, result⟩ := s.handleFin_eq
      rw [result]
      split <;> rfl
  | receiving =>
      obtain ⟨_, _, _, result⟩ := s.doReceive_eq
      rw [result]
      rfl
  | rexmtBegun =>
      obtain ⟨_, _, _, _, _, _, _, _, _, _, result⟩ := s.rexmtBegun_eq
      rw [result]
      rfl
  | persistBegun =>
      obtain ⟨_, _, _, _, _, result, _⟩ := s.persistBegun_eq
      rw [result]
      rfl
  | @acceptBusy h =>
      obtain ⟨_, _, _, result⟩ := ({ s with sk.acceptHandler := some h } : Endpoint).doReceive_eq
      rw [result]
      rfl
  | @accept h =>
      obtain ⟨_, _, _, result⟩ := ({ s with sk.acceptHandler := some h } : Endpoint).doReceive_eq
      rw [result]
      rfl
  | @shutdown h =>
      rw [closing_eq]
      rfl
  | mtu =>
      unfold UdtCb.setMtu
      split <;> rfl
  | arrived | sampled | hangup | windowed | owed | ackPredicted | syn | fack | cwnd | rewrite
  | late | duplicate | recovering | fastRexmt | ackNew | connect | connectBusy =>
      exact absurd trivial plain
  | _ => rfl

theorem path_counters {C : Endpoint → Tag → Prop} (path : BlockPath C s t)
    (plain : ∀ s a, C s a → ¬ a.Acking) : t.counters = s.counters := by
  refine path.invariant (I := fun t => t.counters = s.counters) rfl ?_
  intro x a y same met block
  refine Block.keeps (I := fun t => t.counters = s.counters) block same fun {x b y} whole tag same block => ?_
  refine (block_counters block whole ?_).trans same
  rcases tag with rfl | rfl | rfl | rfl
  · exact plain _ _ met
  all_goals exact not_false

theorem doFastRexmt_counters (s : Endpoint) (ack : Word) :
    (s.doFastRexmt ack).counters = s.counters := by
  obtain ⟨_, _, _, _, _, _, _, _, result, _⟩ := s.beginFastRexmt_eq ack
  have begun : (s.handlePacketLost.beginFastRexmt ack).counters = s.counters := by
    rw [result]
    rfl
  have sent := output_counters (s.handlePacketLost.beginFastRexmt ack)
  rw [doFastRexmt]
  dsimp only
  generalize (s.handlePacketLost.beginFastRexmt ack).output = x at sent ⊢
  exact Eq.trans sent begun

/-- The packet comes to `handle_ack`. -/
def comesToAck (s : Endpoint) (p : UdtPacket) : Prop :=
  s.admits p.hdr = true ∧ ((s.entered p).doHeaderPrediction p).1 = false ∧
    (hasSyn p.hdr.flags = true → ((s.entered p).handleSyn p).1 = false) ∧
    hasAck p.hdr.flags = true

instance (s : Endpoint) (p : UdtPacket) : Decidable (s.comesToAck p) :=
  inferInstanceAs (Decidable (_ ∧ _ ∧ _ ∧ _))

/-- The state in which `handle_ack` then compares the acknowledgement with `m_snd_una`. -/
def ackPoint (s : Endpoint) (p : UdtPacket) : Endpoint :=
  ((s.synced p).stored p.counted).acked p.counted

/-- `handle_ack` counts the packet as a duplicate. -/
def countsDuplicate (s : Endpoint) (p : UdtPacket) : Prop :=
  s.comesToAck p ∧ (s.ackPoint p).acceptsAck p.hdr ∧ p.hdr.ack = (s.ackPoint p).cb.sndUna ∧
    p.hdr.win.setWidth 32 = (s.ackPoint p).cb.sndWnd

instance (s : Endpoint) (p : UdtPacket) : Decidable (s.countsDuplicate p) :=
  inferInstanceAs (Decidable (_ ∧ _ ∧ _ ∧ _))

/-- The event brings a packet that `handle_ack` counts as a duplicate. -/
def bringsDuplicate (s : Endpoint) (e : Event) : Prop := ∃ p ∈ s.arriving e, s.countsDuplicate p

instance (s : Endpoint) (e : Event) : Decidable (s.bringsDuplicate e) :=
  inferInstanceAs (Decidable (∃ p ∈ s.arriving e, s.countsDuplicate p))

/-- `handle_ack` calls `do_fast_rexmt`. -/
def recovers (s : Endpoint) (p : UdtPacket) : Prop :=
  s.countsDuplicate p ∧ (s.ackPoint p).cb.tRexmt ≠ 0 ∧
    (s.ackPoint p).cb.dupacks + 1 = sTcprexmtthresh

instance (s : Endpoint) (p : UdtPacket) : Decidable (s.recovers p) :=
  inferInstanceAs (Decidable (_ ∧ _ ∧ _))

/-- The guard of the fast path for a bare acknowledgement. -/
def predictsAck (s : Endpoint) (ti : UdtHdr) : Prop :=
  s.cb.state = .established ∧
    ti.flags &&& (UdtHdr.TH_SYN ||| UdtHdr.TH_FIN ||| UdtHdr.TH_RST ||| UdtHdr.TH_ACK) =
      UdtHdr.TH_ACK ∧
    ti.seq = s.cb.rcvNxt ∧ (ti.win.setWidth 32 : Word) ≠ 0 ∧ ti.win.setWidth 32 = s.cb.sndWnd ∧
    s.cb.sndNxt = s.cb.sndMax ∧ ti.len = 0 ∧ seqGt ti.ack s.cb.sndUna ∧
    seqLe ti.ack s.cb.sndMax ∧ s.cb.isCwndFullOpen = true

instance (s : Endpoint) (ti : UdtHdr) : Decidable (s.predictsAck ti) :=
  inferInstanceAs (Decidable (_ ∧ _ ∧ _ ∧ _ ∧ _ ∧ _ ∧ _ ∧ _ ∧ _ ∧ _))

/-- No duplicates are counted when the packet moves `m_snd_una` by the fast path or as a SYN, and
a SYN is not counted as one. -/
def ackedAfresh (s : Endpoint) (ti : UdtHdr) : Prop :=
  (s.predictsAck ti → s.cb.dupacks = 0) ∧
    (s.cb.state = .listen ∧ hasSyn ti.flags = true ∧ s.cb.sndUna ≠ sIss →
      s.cb.dupacks = 0 ∧ (hasAck ti.flags = true ∧ ti.ack = sIss → s.cb.tRexmt = 0))

instance (s : Endpoint) (ti : UdtHdr) : Decidable (s.ackedAfresh ti) :=
  inferInstanceAs (Decidable (_ ∧ _))

theorem counted_hdr (p : UdtPacket) : p.counted.hdr.ack = p.hdr.ack ∧
    p.counted.hdr.win = p.hdr.win ∧ p.counted.hdr.flags = p.hdr.flags := by
  unfold UdtPacket.counted
  split <;> exact ⟨rfl, rfl, rfl⟩

theorem entered_counters (s : Endpoint) (p : UdtPacket) :
    (s.entered p).counters = s.counters := by
  obtain ⟨_, _, _, _, _, _, _, result⟩ := s.entered_eq p
  rw [result]
  rfl

theorem doHeaderPrediction_predictsAck (bare : p.hdr.len = 0)
    (taken : (s.doHeaderPrediction p).1 = true) : s.predictsAck p.hdr := by
  rw [doHeaderPrediction] at taken
  dsimp only at taken
  split at taken
  case isFalse => contradiction
  case isTrue usual =>
    obtain ⟨state, flags, next, open_, win, nxt⟩ := usual
    split at taken
    case isFalse => contradiction
    case isTrue new => exact ⟨state, flags, next, open_, win, nxt, bare, new⟩

theorem predictsAck_of_taken (bare : p.hdr.len = 0)
    (taken : ((s.entered p).doHeaderPrediction p).1 = true) : s.predictsAck p.hdr := by
  have predicted := doHeaderPrediction_predictsAck bare taken
  obtain ⟨_, _, _, _, _, _, _, result⟩ := s.entered_eq p
  rw [result] at predicted
  exact predicted

/-- What a SYN does to the counters before the acknowledgement is looked at. -/
theorem synced_counters (s : Endpoint) (p : UdtPacket) : (s.synced p).counters =
    if hasSyn p.hdr.flags = true ∧ s.cb.state = .listen then (sIss, s.cb.dupacks)
    else s.counters := by
  have before := s.entered_counters p
  have state := s.entered_state p
  unfold synced
  by_cases isSyn : hasSyn p.hdr.flags = true
  · rw [if_pos isSyn]
    obtain ⟨wl1, wl2, tKeep, result⟩ := (s.entered p).handleSyn_eq p
    rw [result, ← before, ← state]
    have dupacks : s.cb.dupacks = (s.entered p).cb.dupacks := (congrArg Prod.snd before).symm
    rw [dupacks]
    cases state : (s.entered p).cb.state <;> simp [counters, isSyn, UdtCb.tcpSendseqinit]
  · rw [if_neg isSyn, before, if_neg fun both => isSyn both.1]

theorem stored_counters (s : Endpoint) (p : UdtPacket) : (s.stored p).counters = s.counters := by
  obtain ⟨_, _, _, _, _, _, result⟩ := s.stored_eq p
  rw [result]
  rfl

theorem acked_counters (s : Endpoint) (p : UdtPacket) : (s.acked p).counters = s.counters := by
  obtain ⟨_, _, _, _, _, _, _, _, _, _, _, _, _, _, _, _, _, _, _, _, result⟩ := s.acked_eq p
  rw [result]
  rfl

theorem ackPoint_counters (s : Endpoint) (p : UdtPacket) :
    (s.ackPoint p).counters = (s.synced p).counters := by
  rw [ackPoint, acked_counters, stored_counters]

theorem ackPoint_acceptsAck : (s.ackPoint p).acceptsAck p.hdr ↔
    ((s.synced p).stored p.counted).acceptsAck p.counted.hdr := by
  obtain ⟨_, _, _, _, _, _, _, _, _, _, _, _, _, _, _, _, _, _, _, _, result⟩ :=
    ((s.synced p).stored p.counted).acked_eq p.counted
  rw [ackPoint, result, acceptsAck, acceptsAck, (counted_hdr p).1]

theorem handleFin_counters (s : Endpoint) : s.handleFin.counters = s.counters := by
  obtain ⟨_, _, result⟩ := s.handleFin_eq
  rw [result]
  split <;> rfl

/-- A timer that does not run is not started by the acknowledgement of everything. -/
theorem updateAckState_stopped (s : Endpoint) (stopped : s.cb.tRexmt = 0) :
    s.updateAckState.cb.tRexmt = 0 := by
  have fin : ∀ t : Endpoint, t.cb.tRexmt = 0 → t.ackFin.cb.tRexmt = 0 := by
    intro t stopped
    unfold ackFin
    split
    · split
      · exact stopped
      · rfl
      · exact stopped
      · exact stopped
    · exact stopped
  refine fin _ ?_
  unfold ackHandshake
  split
  · exact stopped
  · obtain ⟨_, _, _, _, _, _, timed⟩ :=
      ({ s with cb.state := .established } : Endpoint).timeHandshake_eq
    rw [timed]
    obtain ⟨_, _, _, connected⟩ := onConnected_eq
      ({ s with cb.state := .established } : Endpoint).timeHandshake
    rw [timed] at connected
    rw [connected]
    exact stopped
  · exact stopped

theorem acked_stopped (p : UdtPacket) (stopped : s.cb.tRexmt = 0) :
    (s.acked p).cb.tRexmt = 0 := by
  have all : (if s.cb.sndMax = p.hdr.ack then s.updateAckState else s).cb.tRexmt = 0 := by
    split
    · exact s.updateAckState_stopped stopped
    · exact stopped
  unfold acked
  dsimp only
  split
  · obtain ⟨_, _, _, _, _, _, result⟩ := OptionSteps.eq
      ((if s.cb.sndMax = p.hdr.ack then s.updateAckState else s).handleOptions_steps p)
    rwa [result]
  · exact all

theorem ackPoint_stopped (p : UdtPacket) (stopped : s.cb.tRexmt = 0) :
    (s.ackPoint p).cb.tRexmt = 0 := by
  have synced : (s.synced p).cb.tRexmt = 0 := by
    obtain ⟨_, _, _, _, _, _, _, result⟩ := s.entered_eq p
    unfold synced
    split
    · obtain ⟨_, _, _, syn⟩ := (s.entered p).handleSyn_eq p
      rw [syn, result]
      cases s.cb.state <;> exact stopped
    · rw [result]
      exact stopped
  obtain ⟨_, _, _, _, _, _, stored⟩ := (s.synced p).stored_eq p.counted
  refine acked_stopped _ ?_
  rwa [stored]

/-- What one packet does to the counters. Options and a FIN leave them alone, and a SYN starts
them in LISTEN. -/
inductive Counting (s : Endpoint) (p : UdtPacket) (t : Endpoint) : Prop
  | kept (same : t.counters = s.counters)
  | synced (admitted : s.admits p.hdr = true) (same : t.counters = (s.synced p).counters)
  | predicted (admitted : s.admits p.hdr = true) (guard : s.predictsAck p.hdr)
      (same : t.cb.dupacks = s.cb.dupacks)
  | duplicate (counts : s.countsDuplicate p) (una : t.cb.sndUna = (s.synced p).cb.sndUna)
      (dupacks : t.cb.dupacks = 0 ∨
        (s.ackPoint p).cb.tRexmt ≠ 0 ∧ t.cb.dupacks = (s.synced p).cb.dupacks + 1)
  | new (fresh : t.cb.dupacks = 0)

/-- What leaves the counters alone changes nothing about it. -/
theorem Counting.behind {u : Endpoint} (counting : Counting s p t)
    (same : u.counters = t.counters) : Counting s p u := by
  have una : u.cb.sndUna = t.cb.sndUna := congrArg Prod.fst same
  have dupacks : u.cb.dupacks = t.cb.dupacks := congrArg Prod.snd same
  cases counting with
  | kept kept => exact .kept (same.trans kept)
  | synced admitted kept => exact .synced admitted (same.trans kept)
  | predicted admitted guard kept => exact .predicted admitted guard (dupacks.trans kept)
  | duplicate counts kept bounds => exact .duplicate counts (una.trans kept) (dupacks ▸ bounds)
  | new fresh => exact .new (dupacks.trans fresh)

theorem ackDuplicate_counters (s : Endpoint) (ti : UdtHdr) :
    (ti.win.setWidth 32 ≠ s.cb.sndWnd ∧ (s.ackDuplicate ti).2.counters = s.counters) ∨
      ti.win.setWidth 32 = s.cb.sndWnd ∧ (s.ackDuplicate ti).2.cb.sndUna = s.cb.sndUna ∧
        ((s.ackDuplicate ti).2.cb.dupacks = 0 ∨
          s.cb.tRexmt ≠ 0 ∧ (s.ackDuplicate ti).2.cb.dupacks = s.cb.dupacks + 1) := by
  rw [ackDuplicate]
  dsimp only
  by_cases window : ti.win.setWidth 32 ≠ s.cb.sndWnd
  · rw [if_pos window]
    obtain ⟨_, _, result⟩ := s.ackWindow_eq (ti.win.setWidth 32)
    refine .inl ⟨window, ?_⟩
    have same : (s.ackWindow (ti.win.setWidth 32)).counters = s.counters := by
      rw [result]
      rfl
    exact same
  rw [if_neg window]
  refine .inr ⟨not_not.mp window, ?_⟩
  by_cases stopped : s.cb.tRexmt = 0
  · rw [if_pos stopped]
    obtain ⟨_, _, timer⟩ := resetRexmtTimer_eq { s.cb with dupacks := 0 }
    dsimp only
    rw [timer]
    exact ⟨rfl, .inl rfl⟩
  rw [if_neg stopped]
  split
  · have sent := doFastRexmt_counters
      { s with cb.dupacks := s.cb.dupacks + 1, cb.rtt := 0 } ti.ack
    exact ⟨congrArg Prod.fst sent, .inr ⟨stopped, congrArg Prod.snd sent⟩⟩
  · split
    · exact ⟨rfl, .inr ⟨stopped, rfl⟩⟩
    · obtain ⟨_, _, timer⟩ := resetRexmtTimer_eq { s.cb with dupacks := s.cb.dupacks + 1 }
      dsimp only
      rw [timer]
      exact ⟨rfl, .inr ⟨stopped, rfl⟩⟩

theorem handleAck_counting (admitted : s.admits p.hdr = true)
    (missed : ((s.entered p).doHeaderPrediction p).1 = false)
    (taken : hasSyn p.hdr.flags = true → ((s.entered p).handleSyn p).1 = false)
    (isAck : hasAck p.hdr.flags = true) :
    Counting s p (((s.synced p).stored p.counted).handleAck p.counted).2 := by
  obtain ⟨ack, win, _⟩ := counted_hdr p
  have stored := (s.synced p).stored_counters p.counted
  have point : (s.ackPoint p).counters = (s.synced p).counters := s.ackPoint_counters p
  have una : ((s.synced p).stored p.counted).cb.sndUna = (s.ackPoint p).cb.sndUna :=
    congrArg Prod.fst (stored.trans point.symm)
  have outcome := ((s.synced p).stored p.counted).handleAck_outcome p.counted
  generalize ((s.synced p).stored p.counted).handleAck p.counted = t at outcome ⊢
  cases outcome with
  | old => exact .synced admitted stored
  | beyond => exact .synced admitted stored
  | duplicate accepted same =>
      obtain ⟨_, kept⟩ | ⟨window, kept, dupacks⟩ :=
        (s.ackPoint p).ackDuplicate_counters p.counted.hdr
      · exact .synced admitted (kept.trans point)
      · refine .duplicate ⟨⟨admitted, missed, taken, isAck⟩, ackPoint_acceptsAck.mpr accepted, ?_, ?_⟩ ?_ ?_
        · rw [← una, ← same, ack]
        · rw [← window, win]
        · exact kept.trans (congrArg Prod.fst point)
        · have before : (s.ackPoint p).cb.dupacks = (s.synced p).cb.dupacks :=
            congrArg Prod.snd point
          rwa [← before]
  | new accepted above =>
      obtain ⟨_, _, _, _, _, _, _, _, _, result⟩ := (s.ackPoint p).ackNewData_eq p.counted.hdr
      refine .new ?_
      change ((s.ackPoint p).ackNewData p.counted.hdr).cb.dupacks = 0
      rw [result]

/-- Counting is done once `handle_ack` is. -/
theorem inputSegment_counting (admitted : s.admits p.hdr = true)
    (missed : ((s.entered p).doHeaderPrediction p).1 = false)
    (taken : hasSyn p.hdr.flags = true → ((s.entered p).handleSyn p).1 = false) :
    Counting s p ((s.synced p).inputSegment p.counted) := by
  have stored := (s.synced p).stored_counters p.counted
  obtain ⟨_, _, flags⟩ := counted_hdr p
  rw [inputSegment_eq, flags]
  by_cases isAck : hasAck p.hdr.flags = true
  · have counting := handleAck_counting admitted missed taken isAck
    rw [if_pos isAck]
    split
    · exact counting.behind (handleFin_counters _)
    · exact counting
  · rw [if_neg isAck]
    split
    · exact .synced admitted ((handleFin_counters _).trans stored)
    · exact .synced admitted stored

theorem inputChecked_counting (s : Endpoint) (p : UdtPacket) :
    Counting s p (s.inputChecked p) := by
  have entered := s.entered_counters p
  have outcome := s.inputChecked_outcome p
  generalize s.inputChecked p = t at outcome ⊢
  cases outcome with
  | ignored => exact .kept entered
  | hangup => exact .kept entered
  | outside => exact .kept entered
  | ackPredicted admitted _ _ bare _ _ taken =>
      have guard := predictsAck_of_taken bare taken
      obtain ⟨_, _, _, _, _, _, _, _, result⟩ := (s.entered p).ackPredicted_eq p.hdr.ack
      have drained : ((s.entered p).ackPredicted p.hdr.ack).cb.dupacks = s.cb.dupacks := by
        rw [result]
        exact congrArg Prod.snd entered
      generalize (s.entered p).ackPredicted p.hdr.ack = t at drained ⊢
      have sent := t.outputData_counters
      generalize t.outputData = u at sent ⊢
      exact .predicted admitted guard ((congrArg Prod.snd sent).trans drained)
  | storePredicted => exact .kept entered
  | synRefused admitted => exact .synced admitted rfl
  | segment admitted missed taken =>
      exact inputSegment_counting admitted missed taken

/-- What an event does to the counters. -/
inductive EventCounting (s : Endpoint) (e : Event) (t : Endpoint) : Prop
  | kept (same : t.counters = s.counters)
  | packet {q : UdtPacket} (here : s.arriving e = some q) (counting : Counting s q t)
  | connect {h : Nat} (asked : e = .connect h) (alive : s.sk.nextLayer = true)
      (state : s.cb.state = .closed) (same : t.counters = (sIss, s.cb.dupacks))

theorem late_counters (path : BlockPath Tag.Late s t) : t.counters = s.counters := by
  refine path_counters path ?_
  rintro _ a (rfl | rfl | rfl) <;> exact not_false

/-- After `input` nothing moves the counters. -/
theorem arriving_counters (here : s.arriving e = some p) :
    (s.step e).counters = (s.inputChecked p).counters := by
  obtain ⟨hdr, mem, n, buffer, rfl, alive, pending, good, rfl⟩ := arriving_inv here
  change (s.handleReceive hdr mem n).counters = _
  rw [handleReceive_good alive pending good]
  generalize s.inputChecked (hostPacket hdr mem buffer) = t
  have late := (inner_late t.commitOutput_blocks).trans t.commitRest_blocks
  exact late_counters (late.trans t.commitNotifies.received_blocks)

theorem packet_counting (s : Endpoint) (hdr : UdtHdr) (mem : List UChar) (n : Nat) :
    EventCounting s (.packet hdr mem n) (s.step (.packet hdr mem n)) := by
  rcases s.handleReceive_cases hdr mem n with (same | same) | ⟨buffer, alive, pending, good, _⟩
  · rw [step, same]
    exact .kept rfl
  · rw [step, same]
    exact .kept (congrArg (fun c : UdtCb => (c.sndUna, c.dupacks)) s.doReceive_cb)
  · have here : s.arriving (.packet hdr mem n) = some (hostPacket hdr mem buffer) := by
      rw [arriving, pending]
      exact if_pos ⟨alive, good⟩
    have counting := s.inputChecked_counting (hostPacket hdr mem buffer)
    exact .packet here (counting.behind (arriving_counters here))

theorem connect_counting (s : Endpoint) (h : Nat) :
    EventCounting s (.connect h) (s.asyncConnect h) := by
  by_cases alive : s.sk.nextLayer = true
  · obtain ⟨m, block, path⟩ := s.connect_blocks h alive
    have same : (s.asyncConnect h).counters = m.counters :=
      late_counters (inner_late path)
    cases block with
    | connect _ state =>
        obtain ⟨_, _, _, result⟩ := s.connecting_eq h
        refine .connect rfl alive state ?_
        rw [same, result]
        rfl
    | connectBusy =>
        refine .kept ?_
        rw [same]
        exact congrArg (fun c : UdtCb => (c.sndUna, c.dupacks)) (doReceive_cb _)
  · rw [asyncConnect, if_neg alive]
    exact .kept rfl

theorem step_counting (s : Endpoint) (e : Event) : EventCounting s e (s.step e) := by
  have plain : (∀ a, e.Tags s a → ¬ a.Acking) → EventCounting s e (s.step e) :=
    fun plain => .kept (path_counters (s.step_blocks e) fun _ => plain)
  cases e with
  | packet hdr mem n => exact s.packet_counting hdr mem n
  | connect h => exact s.connect_counting h
  | slowTimo | delayTimer =>
      apply plain
      rintro a (rfl | rfl | rfl) <;> exact not_false
  | fastTimo | send | receive | shutdown | close =>
      apply plain
      rintro a (rfl | rfl) <;> exact not_false
  | receiveError =>
      apply plain
      rintro a (rfl | rfl | rfl | rfl) <;> exact not_false
  | _ =>
      apply plain
      rintro a rfl
      exact not_false

theorem handleAck_recovers (here : s.recovers p) :
    ((s.synced p).stored p.counted).handleAck p.counted =
      (true, { s.ackPoint p with
        cb.dupacks := (s.ackPoint p).cb.dupacks + 1, cb.rtt := 0 }.doFastRexmt p.hdr.ack) := by
  obtain ⟨⟨_, accepts, same, window⟩, running, third⟩ := here
  obtain ⟨ack, win, _⟩ := counted_hdr p
  have point : ((s.synced p).stored p.counted).counters = (s.ackPoint p).counters :=
    (acked_counters _ _).symm
  have una : ((s.synced p).stored p.counted).cb.sndUna = (s.ackPoint p).cb.sndUna :=
    congrArg Prod.fst point
  have accepts := ackPoint_acceptsAck.mp accepts
  have outcome := ((s.synced p).stored p.counted).handleAck_outcome p.counted
  generalize ((s.synced p).stored p.counted).handleAck p.counted = t at outcome ⊢
  cases outcome with
  | old old => exact absurd old accepts.1
  | beyond beyond => exact absurd beyond accepts.2
  | new _ above =>
      rw [una, ack, ← same, seqGt_iff] at above
      bv_omega
  | duplicate =>
      change (s.ackPoint p).ackDuplicate p.counted.hdr = _
      rw [ackDuplicate]
      dsimp only
      have fast : canFastRexmt { s.ackPoint p with cb.dupacks := (s.ackPoint p).cb.dupacks + 1 } =
          true := by
        simpa [canFastRexmt] using third
      rw [if_neg (not_not.mpr (win ▸ window)), if_neg running, if_pos fast, ack]

/-- The duplicate that makes up the number is the one on which `do_fast_rexmt` runs. -/
theorem inputChecked_recovers (here : s.recovers p) : s.inputChecked p =
    ({ s.ackPoint p with
      cb.dupacks := (s.ackPoint p).cb.dupacks + 1, cb.rtt := 0 }.doFastRexmt p.hdr.ack) := by
  obtain ⟨admitted, missed, taken, isAck⟩ := here.1.1
  obtain ⟨_, _, flags⟩ := counted_hdr p
  have outcome := s.inputChecked_outcome p
  have resent := handleAck_recovers here
  generalize s.inputChecked p = t at outcome ⊢
  generalize Endpoint.doFastRexmt _ _ = u at resent ⊢
  cases outcome with
  | ignored refused | hangup refused | outside refused =>
      exact absurd (admitted.symm.trans refused) (by decide)
  | ackPredicted _ _ _ _ _ _ took | storePredicted _ _ _ _ took =>
      exact absurd (missed.symm.trans took) (by decide)
  | synRefused _ isSyn refused =>
      exact absurd ((taken isSyn).symm.trans refused) (by decide)
  | segment =>
      rw [inputSegment_eq, flags, if_pos isAck, resent]
      exact if_neg fun both => Bool.noConfusion both.1

end Endpoint

namespace Event

/-- Nothing but a new acknowledgement in `handle_ack` moves `m_snd_una` away from duplicates
counted for it: neither the fast path, nor a connection started anew. -/
def CountsAfresh (s : Endpoint) : Event → Prop
  | .connect _ => s.sk.nextLayer = true ∧ s.cb.state = .closed ∧ s.cb.sndUna ≠ sIss →
      s.cb.dupacks = 0
  | .packet hdr mem n => ∀ p ∈ s.arriving (.packet hdr mem n), s.admits p.hdr = true →
      s.ackedAfresh p.hdr
  | _ => True

instance (s : Endpoint) : (e : Event) → Decidable (e.CountsAfresh s)
  | .connect _ => inferInstanceAs (Decidable (_ ∧ _ ∧ _ → _))
  | .packet hdr mem n =>
      inferInstanceAs (Decidable (∀ p ∈ s.arriving (.packet hdr mem n), _ → s.ackedAfresh p.hdr))
  | .accept _ | .slowTimo | .fastTimo | .send _ | .receive _ | .shutdown _ | .delayTimer _
  | .receiveError _ | .mtu | .setKeepalive _ | .setSndBuf _ | .setRcvBuf _ | .cancel | .close =>
      .isTrue trivial

end Event

/-- An endpoint, and how many duplicates came since `m_snd_una` last changed. -/
structure Tally where
  endpoint : Endpoint
  duplicates : Nat

namespace Tally

def next (g : Tally) (e : Event) : Tally where
  endpoint := g.endpoint.step e
  duplicates :=
    if (g.endpoint.step e).cb.sndUna ≠ g.endpoint.cb.sndUna then 0
    else if g.endpoint.bringsDuplicate e then g.duplicates + 1 else g.duplicates

variable {g : Tally} {e : Event}

theorem next_still (still : (g.endpoint.step e).cb.sndUna = g.endpoint.cb.sndUna) :
    g.duplicates ≤ (g.next e).duplicates ∧
      (g.endpoint.bringsDuplicate e → (g.next e).duplicates = g.duplicates + 1) := by
  rw [next]
  dsimp only
  rw [if_neg (not_not.mpr still)]
  split
  · exact ⟨Nat.le_succ _, fun _ => rfl⟩
  · next plain => exact ⟨le_rfl, fun brings => absurd brings plain⟩

/-- The count is right after an event that leaves it alone, or finds it at zero. -/
theorem next_fits (still : (g.endpoint.step e).cb.sndUna = g.endpoint.cb.sndUna →
      (g.endpoint.step e).cb.dupacks.toNat ≤ (g.next e).duplicates)
    (moved : (g.endpoint.step e).cb.sndUna ≠ g.endpoint.cb.sndUna →
      (g.endpoint.step e).cb.dupacks = 0) :
    (g.next e).endpoint.cb.dupacks.toNat ≤ (g.next e).duplicates := by
  change (g.endpoint.step e).cb.dupacks.toNat ≤ _
  by_cases same : (g.endpoint.step e).cb.sndUna = g.endpoint.cb.sndUna
  · exact still same
  · rw [moved same]
    exact Nat.zero_le _

theorem ackedAfresh_of {p : UdtPacket} (afresh : e.CountsAfresh g.endpoint)
    (here : g.endpoint.arriving e = some p) (admitted : g.endpoint.admits p.hdr = true) :
    g.endpoint.ackedAfresh p.hdr := by
  cases e with
  | packet => exact afresh p here admitted
  | _ => contradiction

/-- A SYN moves `m_snd_una` only in LISTEN. -/
theorem synced_afresh {p : UdtPacket} {s : Endpoint} (afresh : s.ackedAfresh p.hdr) :
    (s.synced p).counters = s.counters ∨
      (s.synced p).counters = (sIss, 0) ∧ s.cb.dupacks = 0 ∧
        (hasAck p.hdr.flags = true ∧ p.hdr.ack = sIss → s.cb.tRexmt = 0) := by
  rw [s.synced_counters p]
  split
  · next starts =>
      by_cases same : s.cb.sndUna = sIss
      · rw [← same]
        exact .inl rfl
      · obtain ⟨none_, stopped⟩ := afresh.2 ⟨starts.2, starts.1, same⟩
        rw [none_]
        exact .inr ⟨rfl, rfl, stopped⟩
  · exact .inl rfl

theorem next_counts (afresh : e.CountsAfresh g.endpoint)
    (counted : g.endpoint.cb.dupacks.toNat ≤ g.duplicates) :
    ((g.endpoint.step e).cb.sndUna = g.endpoint.cb.sndUna →
        (g.endpoint.step e).cb.dupacks.toNat ≤ (g.next e).duplicates) ∧
      ((g.endpoint.step e).cb.sndUna ≠ g.endpoint.cb.sndUna →
        (g.endpoint.step e).cb.dupacks = 0) := by
  have counting := g.endpoint.step_counting e
  have still := next_still (g := g) (e := e)
  generalize g.endpoint.step e = t at counting still ⊢
  have kept : t.counters = g.endpoint.counters →
      (t.cb.sndUna = g.endpoint.cb.sndUna → t.cb.dupacks.toNat ≤ (g.next e).duplicates) ∧
      (t.cb.sndUna ≠ g.endpoint.cb.sndUna → t.cb.dupacks = 0) := by
    intro same
    have una : t.cb.sndUna = g.endpoint.cb.sndUna := congrArg Prod.fst same
    have dupacks : t.cb.dupacks = g.endpoint.cb.dupacks := congrArg Prod.snd same
    refine ⟨fun _ => ?_, fun moved => absurd una moved⟩
    rw [dupacks]
    exact counted.trans (still una).1
  have reset : t.cb.dupacks = 0 →
      (t.cb.sndUna = g.endpoint.cb.sndUna → t.cb.dupacks.toNat ≤ (g.next e).duplicates) ∧
      (t.cb.sndUna ≠ g.endpoint.cb.sndUna → t.cb.dupacks = 0) := by
    intro zero
    rw [zero]
    exact ⟨fun _ => Nat.zero_le _, fun _ => rfl⟩
  cases counting with
  | kept same => exact kept same
  | connect asked alive state same =>
      subst asked
      by_cases una : g.endpoint.cb.sndUna = sIss
      · refine kept ?_
        rw [same, ← una]
        rfl
      · refine reset ?_
        exact (congrArg Prod.snd same).trans (afresh ⟨alive, state, una⟩)
  | @packet p here counting =>
      cases counting with
      | kept same => exact kept same
      | new fresh => exact reset fresh
      | predicted admitted guard same =>
          exact reset (same.trans ((ackedAfresh_of afresh here admitted).1 guard))
      | synced admitted same =>
          rcases synced_afresh (ackedAfresh_of afresh here admitted) with plain | ⟨start, _⟩
          · exact kept (same.trans plain)
          · exact reset (congrArg Prod.snd (same.trans start))
      | duplicate counts una dupacks =>
          rcases dupacks with zero | ⟨running, more⟩
          · exact reset zero
          have admitted := counts.1.1
          have point := g.endpoint.ackPoint_counters p
          rcases synced_afresh (ackedAfresh_of afresh here admitted) with plain | ⟨start, _, stopped⟩
          · have una : t.cb.sndUna = g.endpoint.cb.sndUna := una.trans (congrArg Prod.fst plain)
            refine ⟨fun _ => ?_, fun moved => absurd una moved⟩
            have before : (g.endpoint.synced p).cb.dupacks = g.endpoint.cb.dupacks :=
              congrArg Prod.snd plain
            rw [(still una).2 ⟨p, here, counts⟩, more, before]
            bv_omega
          · have ack : p.hdr.ack = sIss :=
              counts.2.2.1.trans (congrArg Prod.fst (point.trans start))
            exact absurd (Endpoint.ackPoint_stopped p (stopped ⟨counts.1.2.2.2, ack⟩)) running

theorem next_recovers {p : UdtPacket} (afresh : e.CountsAfresh g.endpoint)
    (counted : g.endpoint.cb.dupacks.toNat ≤ g.duplicates) (here : g.endpoint.arriving e = some p)
    (recovers : g.endpoint.recovers p) : sTcprexmtthresh.toNat ≤ (g.next e).duplicates := by
  have third := recovers.2.2
  have counts := recovers.1
  have point := g.endpoint.ackPoint_counters p
  rcases synced_afresh (ackedAfresh_of afresh here counts.1.1) with plain | ⟨start, _⟩
  · have result := (g.endpoint.arriving_counters here).trans
      (congrArg Endpoint.counters (Endpoint.inputChecked_recovers recovers))
    rw [Endpoint.doFastRexmt_counters] at result
    have una : (g.endpoint.step e).cb.sndUna = g.endpoint.cb.sndUna :=
      (congrArg Prod.fst result).trans (congrArg Prod.fst (point.trans plain))
    have dupacks : (g.endpoint.ackPoint p).cb.dupacks = g.endpoint.cb.dupacks :=
      congrArg Prod.snd (point.trans plain)
    rw [(next_still una).2 ⟨p, here, counts⟩]
    rw [dupacks, sTcprexmtthresh] at third
    rw [sTcprexmtthresh]
    bv_omega
  · have dupacks : (g.endpoint.ackPoint p).cb.dupacks = 0 := congrArg Prod.snd (point.trans start)
    rw [dupacks] at third
    contradiction

/-- As long as each event counts afresh, `m_dupacks` counts no more than the duplicates that came
since `m_snd_una` last changed, a new `m_snd_una` finds it at zero, and `do_fast_rexmt` runs on
the third of them at the earliest. -/
theorem duplicates_counted (fack sndSeq rcvSeq : Word) (env : Env) (es : List Event)
    (afresh : Trace.Meets next (fun g e => e.CountsAfresh g.endpoint)
      ⟨.init fack sndSeq rcvSeq env, 0⟩ es) :
    let g := es.foldl next ⟨.init fack sndSeq rcvSeq env, 0⟩
    g.endpoint.cb.dupacks.toNat ≤ g.duplicates ∧
      ∀ e, e.CountsAfresh g.endpoint →
        ((g.next e).endpoint.cb.sndUna ≠ g.endpoint.cb.sndUna →
          (g.next e).endpoint.cb.dupacks = 0) ∧
        ∀ p ∈ g.endpoint.arriving e, g.endpoint.recovers p →
          sTcprexmtthresh.toNat ≤ (g.next e).duplicates := by
  have counted := afresh.invariant (I := fun g => g.endpoint.cb.dupacks.toNat ≤ g.duplicates)
    le_rfl fun g e counted afresh =>
      next_fits (next_counts afresh counted).1 (next_counts afresh counted).2
  refine ⟨counted, fun e afresh => ⟨(next_counts afresh counted).2, ?_⟩⟩
  intro p here recovers
  exact next_recovers afresh counted here recovers

/-- A bare acknowledgement with an open window. -/
def bareAck (ack : Word) : Event := .datagram (UdtHdr.mk 0 UdtHdr.TH_ACK 4000 0 20 101 ack 0) []

/-- An active open, two bytes sent, and two duplicates of the acknowledgement before them. -/
def duplicated : List Event :=
  [.connect 0, .datagram (UdtHdr.mk 0 (UdtHdr.TH_SYN ||| UdtHdr.TH_ACK) 4000 0 20 100 1 0) [],
    .send ⟨⟨some [1, 2], by simp⟩, 0⟩, bareAck 1, bareAck 1]

theorem duplicates_counted_third :
    let g := duplicated.foldl next ⟨.init 0 0 0 Env.zero, 0⟩
    (∃ p ∈ g.endpoint.arriving (bareAck 1), g.endpoint.recovers p) ∧
      sTcprexmtthresh.toNat ≤ (g.next (bareAck 1)).duplicates := by
  intro g
  have third : ∃ p ∈ g.endpoint.arriving (bareAck 1), g.endpoint.recovers p := by decide +kernel
  obtain ⟨p, here, recovers⟩ := third
  have counted := duplicates_counted 0 0 0 Env.zero duplicated (by decide +kernel)
  exact ⟨⟨p, here, recovers⟩, (counted.2 (bareAck 1) (by decide +kernel)).2 p here recovers⟩

/-- The fast path takes the acknowledgement of the two bytes, and the first duplicate of that
one already starts `do_fast_rexmt`. -/
theorem fast_path_keeps_dupacks :
    let v := duplicated.foldl next ⟨.init 0 0 0 Env.zero, 0⟩
    let w := v.next (bareAck 3)
    let g := w.next (.send ⟨⟨some [3, 4], by simp⟩, 0⟩)
    v.endpoint.cb.sndUna = 1 ∧ w.endpoint.cb.sndUna = 3 ∧ w.endpoint.cb.dupacks = 2 ∧
      (∃ p ∈ g.endpoint.arriving (bareAck 3), g.endpoint.recovers p) ∧
        (g.next (bareAck 3)).duplicates = 1 ∧ sTcprexmtthresh = 3 := by
  decide +kernel

end Tally

end UdtBoost
