import UdtBoost.Capacity
import UdtBoost.Intake

/-! The packets that came out of order. `tcp_reass` orders them by their first number, and
`merge_reasm_pkts` takes one off only where it starts exactly at `m_rcv_nxt`, so that a packet
which overlaps another, or starts behind, stays for good. -/
namespace UdtBoost

namespace UdtHdr

/-- The number after the payload. -/
def stop (h : UdtHdr) : Word := h.seq + h.len.setWidth 32

/-- How far the packet starts ahead of `nxt`. -/
def ahead (nxt : Word) (h : UdtHdr) : Nat := (h.seq - nxt).toNat

/-- The payload ends within `room` bytes from `nxt` on. -/
def Inside (nxt : Word) (room : Nat) (h : UdtHdr) : Prop :=
  h.ahead nxt + h.len.toNat ≤ room ∧ h.ahead nxt + h.len.toNat < 2 ^ 31

/-- The packet is over where the other one starts, and has no FIN. -/
def Before (nxt : Word) (x y : UdtHdr) : Prop :=
  x.ahead nxt < y.ahead nxt ∧ x.ahead nxt + x.len.toNat ≤ y.ahead nxt ∧ hasFin x.flags = false

instance (nxt : Word) (room : Nat) (h : UdtHdr) : Decidable (h.Inside nxt room) :=
  inferInstanceAs (Decidable (_ ∧ _))

instance (nxt : Word) (x y : UdtHdr) : Decidable (Before nxt x y) :=
  inferInstanceAs (Decidable (_ ∧ _ ∧ _))

variable {nxt : Word} {room : Nat} {x y h : UdtHdr}

theorem ahead_eq_zero : h.ahead nxt = 0 ↔ h.seq = nxt := by
  unfold ahead
  bv_omega

theorem Inside.mono {more : Nat} (inside : h.Inside nxt room) (grown : room ≤ more) :
    h.Inside nxt more :=
  ⟨inside.1.trans grown, inside.2⟩

/-- The packet `x` starts at `nxt` and is taken away. -/
theorem ahead_shift (starts : x.seq = nxt) (before : Before nxt x y) :
    y.ahead (nxt + x.len.setWidth 32) + x.len.toNat = y.ahead nxt := by
  have after := before.2.1
  rw [ahead_eq_zero.mpr starts] at after
  unfold ahead at *
  bv_omega

theorem Before.seqLt (before : Before nxt x y) (inside : y.Inside nxt room) :
    seqLt x.seq y.seq ∧ seqLe x.stop y.seq := by
  obtain ⟨less, apart, _⟩ := before
  have small := inside.2
  rw [seqLt_iff, seqLe_iff]
  unfold ahead stop at *
  constructor <;> bv_omega

theorem ahead_lt_of_seqLt (less : UdtBoost.seqLt x.seq y.seq) (first : x.Inside nxt room)
    (second : y.Inside nxt room) : x.ahead nxt < y.ahead nxt := by
  have small := first.2
  have small' := second.2
  rw [seqLt_iff] at less
  unfold ahead at *
  bv_omega

theorem ahead_lt_of_not_seqLt (other : ¬ UdtBoost.seqLt x.seq y.seq) (ne : x.seq ≠ y.seq)
    (first : x.Inside nxt room) (second : y.Inside nxt room) : y.ahead nxt < x.ahead nxt := by
  have small := first.2
  have small' := second.2
  rw [seqLt_iff] at other
  unfold ahead at *
  bv_omega

end UdtHdr

open UdtHdr

/-- Packets in order, each over where the next one starts, none behind a FIN. -/
structure Spaced (nxt : Word) (room : Nat) (hs : List UdtHdr) : Prop where
  inside : ∀ h ∈ hs, h.Inside nxt room
  order : hs.Pairwise (Before nxt)

namespace Spaced

variable {nxt : Word} {room : Nat} {p : UdtPacket} {below above run kept : List UdtPacket}

theorem nil (nxt : Word) (room : Nat) : Spaced nxt room [] := ⟨by simp, .nil⟩

/-- A packet that overlaps none of the others keeps them spaced where `tcp_reass` puts it. -/
theorem insert (spaced : Spaced nxt room ((below ++ above).map UdtPacket.hdr))
    (inside : p.hdr.Inside nxt room)
    (apart : ∀ x ∈ below ++ above, x.hdr.seq ≠ p.hdr.seq →
      Before nxt x.hdr p.hdr ∨ Before nxt p.hdr x.hdr)
    (before : ∀ x ∈ below, seqLt x.hdr.seq p.hdr.seq)
    (after : ∀ x, above.head? = some x → ¬ seqLt x.hdr.seq p.hdr.seq ∧ x.hdr.seq ≠ p.hdr.seq) :
    Spaced nxt room ((below ++ p :: above).map UdtPacket.hdr) := by
  have insides : ∀ x ∈ below ++ above, x.hdr.Inside nxt room := fun x member =>
    spaced.inside _ (List.mem_map_of_mem member)
  have ordered := List.pairwise_map.mp spaced.order
  obtain ⟨lower, upper, across⟩ := List.pairwise_append.mp ordered
  have differs : ∀ {x : UdtPacket}, x.hdr.ahead nxt ≠ p.hdr.ahead nxt → x.hdr.seq ≠ p.hdr.seq :=
    fun other same => other (by rw [ahead, ahead, same])
  have under : ∀ x ∈ below, Before nxt x.hdr p.hdr := by
    intro x member
    have here : x ∈ below ++ above := List.mem_append_left _ member
    have less := ahead_lt_of_seqLt (before x member) (insides x here) inside
    rcases apart x here (differs less.ne) with fine | wrong
    · exact fine
    · exact absurd wrong.1 (by omega)
  have beyond : ∀ x ∈ above, Before nxt p.hdr x.hdr := by
    intro x member
    have less : p.hdr.ahead nxt < x.hdr.ahead nxt := by
      cases above with
      | nil => contradiction
      | cons y above =>
          obtain ⟨later, other⟩ := after y rfl
          have first := ahead_lt_of_not_seqLt later other (insides y (by simp)) inside
          rcases List.mem_cons.mp member with rfl | member
          · exact first
          · exact first.trans ((List.pairwise_cons.mp upper).1 x member).1
    have here : x ∈ below ++ above := List.mem_append_right _ member
    rcases apart x here (differs less.ne') with wrong | fine
    · exact absurd wrong.1 (by omega)
    · exact fine
  refine ⟨?_, List.pairwise_map.mpr (List.pairwise_append.mpr ⟨lower, ?_, ?_⟩)⟩
  · intro h member
    obtain ⟨x, queued, rfl⟩ := List.mem_map.mp member
    rcases List.mem_append.mp queued with low | high
    · exact insides x (List.mem_append_left _ low)
    · rcases List.mem_cons.mp high with rfl | high
      · exact inside
      · exact insides x (List.mem_append_right _ high)
  · exact List.pairwise_cons.mpr ⟨beyond, upper⟩
  · intro x low y high
    rcases List.mem_cons.mp high with rfl | high
    · exact under x low
    · exact across x low y high

/-- A run taken away from `nxt` on leaves the rest spaced from its end on. -/
theorem merge (spaced : Spaced nxt room ((run ++ kept).map UdtPacket.hdr))
    (contiguous : Contiguous nxt run) :
    Spaced (nxt + BitVec.ofNat 32 (totalLen run)) (room - totalLen run) (kept.map UdtPacket.hdr) := by
  induction run generalizing nxt room with
  | nil => simpa using spaced
  | cons x run ih =>
      obtain ⟨starts, later⟩ := contiguous
      rw [List.cons_append, List.map_cons] at spaced
      obtain ⟨first, order⟩ := List.pairwise_cons.mp spaced.order
      have none : x.hdr.ahead nxt = 0 := ahead_eq_zero.mpr starts
      have shifted : Spaced (nxt + x.hdr.len.setWidth 32) (room - x.hdr.len.toNat)
          ((run ++ kept).map UdtPacket.hdr) := by
        have moved : ∀ y ∈ (run ++ kept).map UdtPacket.hdr,
            y.ahead (nxt + x.hdr.len.setWidth 32) + x.hdr.len.toNat = y.ahead nxt :=
          fun y member => ahead_shift starts (first y member)
        refine ⟨fun y member => ?_, order.imp_of_mem fun {y z} low high between => ?_⟩
        · have inside := spaced.inside y (List.mem_cons_of_mem _ member)
          have here := moved y member
          unfold Inside at *
          omega
        · have here := moved y low
          have there := moved z high
          unfold Before at *
          exact ⟨by omega, by omega, between.2.2⟩
      have rest := ih shifted later
      have end_ : nxt + x.hdr.len.setWidth 32 + BitVec.ofNat 32 (totalLen run) =
          nxt + BitVec.ofNat 32 (totalLen (x :: run)) := by
        rw [totalLen_cons]
        bv_omega
      rw [end_, Nat.sub_sub] at rest
      rwa [totalLen_cons]

/-- Where the first of them does not start at `nxt`, none does. -/
theorem later {hs : List UdtHdr} (spaced : Spaced nxt room hs)
    (first : ∀ h, hs.head? = some h → h.seq ≠ nxt) : ∀ h ∈ hs, 0 < h.ahead nxt := by
  intro h member
  cases hs with
  | nil => contradiction
  | cons x hs =>
      have start : 0 < x.ahead nxt := by
        rw [Nat.pos_iff_ne_zero, ne_eq, ahead_eq_zero]
        exact first x rfl
      rcases List.mem_cons.mp member with rfl | member
      · exact start
      · exact start.trans ((List.pairwise_cons.mp spaced.order).1 h member).1

end Spaced

theorem Contiguous.isChain {nxt : Word} {run : List UdtPacket} (contiguous : Contiguous nxt run) :
    (run.map UdtPacket.hdr).IsChain fun x y => x.stop = y.seq := by
  induction run generalizing nxt with
  | nil => exact .nil
  | cons p run ih =>
      obtain ⟨starts, later⟩ := contiguous
      rw [List.map_cons, List.isChain_cons]
      refine ⟨fun y head => ?_, ih later⟩
      cases run with
      | nil => contradiction
      | cons q run =>
          obtain rfl : q.hdr = y := Option.some.inj head
          rw [stop, starts]
          exact later.1.symm

namespace Intake

/-- The receiving half as `check_reasm_pkts` and `check_rcv_pkts` want it, with nothing waiting
that could be merged, and nothing waiting behind a FIN. -/
structure Orderly (i : Intake) : Prop where
  spaced : Spaced i.rcvNxt i.acc.toNat i.waiting
  later : ∀ h, i.waiting.head? = some h → h.seq ≠ i.rcvNxt
  chain : i.queued.IsChain fun x y => x.stop = y.seq
  fin : ∀ x ∈ i.queued.getLast?, hasFin x.flags = true → i.waiting = []

/-- A packet for `TCP_REASS` ends inside the buffer, overlaps nothing that waits, does not come
behind a FIN, and where it starts at `m_rcv_nxt`, `rcv_buf` ends there. -/
def Places (i : Intake) (h : UdtHdr) : Prop :=
  h.Inside i.rcvNxt i.acc.toNat ∧
    (∀ x ∈ i.waiting, x.seq ≠ h.seq → Before i.rcvNxt x h ∨ Before i.rcvNxt h x) ∧
    ∀ x ∈ i.queued.getLast?, (h.seq = i.rcvNxt → x.stop = i.rcvNxt) ∧
      (hasFin x.flags = true → h.seq = i.rcvNxt)

instance (i : Intake) (h : UdtHdr) : Decidable (i.Places h) :=
  inferInstanceAs (Decidable (_ ∧ (∀ _ ∈ _, _ → _) ∧ ∀ _ ∈ _, _ ∧ _))

/-- Nothing waits, so that the number `m_rcv_nxt` may be anything. -/
theorem Orderly.of_empty {i : Intake} (empty : i.waiting = [])
    (chain : i.queued.IsChain fun x y => x.stop = y.seq) : i.Orderly where
  spaced := by rw [empty]; exact .nil _ _
  later := by simp [empty]
  chain := chain
  fin _ _ _ := empty

end Intake

namespace Endpoint

variable {s t : Endpoint} {p : UdtPacket} {e : Event}

/-- What starts at `m_rcv_nxt` is merged, and nothing else is. -/
theorem Stored.run_eq_nil_iff {below above run kept : List UdtPacket}
    (stored : s.Stored p t below above run kept) (orderly : s.intake.Orderly)
    (queue : Spaced s.cb.rcvNxt s.sk.rcvBuf.acc.toNat ((below ++ p :: above).map UdtPacket.hdr))
    (stays : ∀ x, kept.head? = some x → x.hdr.seq ≠ s.cb.rcvNxt + BitVec.ofNat 32 (totalLen run)) :
    run = [] ↔ p.hdr.seq ≠ s.cb.rcvNxt := by
  have split := stored.split
  constructor
  · rintro rfl starts
    have first : below = [] := by
      cases below with
      | nil => rfl
      | cons x below =>
          have order := queue.order
          rw [List.cons_append, List.map_cons, List.pairwise_cons] at order
          have less := (order.1 p.hdr (by simp)).1
          rw [ahead_eq_zero.mpr starts] at less
          contradiction
    rw [first, List.nil_append, List.nil_append] at split
    refine stays p (by rw [← split]; rfl) ?_
    simpa using starts
  · intro other
    cases run with
    | nil => rfl
    | cons q run =>
        have starts := stored.contiguous.1
        rw [List.cons_append] at split
        cases below with
        | nil =>
            obtain ⟨rfl, _⟩ := List.cons.inj split
            exact absurd starts other
        | cons x below =>
            obtain ⟨rfl, _⟩ := List.cons.inj split
            refine absurd starts (orderly.later x.hdr ?_)
            change (s.sk.rcvBuf.reasmPkts.map UdtPacket.hdr).head? = _
            rw [stored.queue]
            rfl

/-- A packet in its place leaves the queues in order, and `m_rcv_nxt` before what waits. -/
theorem stored_orderly (orderly : s.intake.Orderly)
    (places : needsReass p.hdr → s.intake.Places p.hdr) : (s.stored p).intake.Orderly := by
  unfold stored
  split
  case isFalse => exact orderly
  case isTrue needs =>
  obtain ⟨inside, apart, ends⟩ := places needs
  rcases s.TCP_REASS_spec p with unstored | ⟨below, above, run, kept, stored⟩
  · obtain ⟨flags, _, _, result⟩ := unstored.result
    rw [result]
    exact orderly
  obtain ⟨flags, _, _, result⟩ := stored.result
  have spaced := orderly.spaced
  have waits : s.intake.waiting = (below ++ above).map UdtPacket.hdr := by
    rw [← stored.queue]
    rfl
  rw [waits] at spaced apart
  have queue := spaced.insert inside
    (fun x member => apart x.hdr (List.mem_map_of_mem member)) stored.before stored.after
  have room : (s.takeRun run kept).sk.rcvBuf.acc.toNat =
      s.sk.rcvBuf.acc.toNat - totalLen run := acc_takeRun stored.room
  have left : Spaced (s.cb.rcvNxt + BitVec.ofNat 32 (totalLen run))
      (s.takeRun run kept).sk.rcvBuf.acc.toNat (kept.map UdtPacket.hdr) := by
    have merged := queue
    rw [stored.split] at merged
    rw [room]
    exact merged.merge stored.contiguous
  -- there is room for what waits, so the head is not at `m_rcv_nxt`
  have stays : ∀ x, kept.head? = some x →
      x.hdr.seq ≠ s.cb.rcvNxt + BitVec.ofNat 32 (totalLen run) := by
    intro x head starts
    cases kept with
    | nil => contradiction
    | cons y kept =>
        obtain rfl : y = x := Option.some.inj head
        have full := stored.stuck starts
        have fits := (left.inside y.hdr (by simp)).1
        omega
  have merges := stored.run_eq_nil_iff orderly queue stays
  rw [result]
  constructor
  · exact left
  · intro h head
    change (kept.map UdtPacket.hdr).head? = some h at head
    rw [List.head?_map] at head
    obtain ⟨x, first, rfl⟩ := Option.map_eq_some_iff.mp head
    exact stays x first
  · change ((s.sk.rcvBuf.pkts ++ run).map UdtPacket.hdr).IsChain _
    rw [List.map_append, List.isChain_append]
    refine ⟨orderly.chain, stored.contiguous.isChain, fun x last y head => ?_⟩
    cases run with
    | nil => contradiction
    | cons q run =>
        obtain rfl : q.hdr = y := Option.some.inj head
        have starts : p.hdr.seq = s.cb.rcvNxt := by
          by_contra other
          exact absurd (merges.mpr other) (by simp)
        exact ((ends x last).1 starts).trans stored.contiguous.1.symm
  · intro h last isFin
    change h ∈ ((s.sk.rcvBuf.pkts ++ run).map UdtPacket.hdr).getLast? at last
    change kept.map UdtPacket.hdr = []
    by_cases none : run = []
    · rw [none, List.append_nil] at last
      exact absurd ((ends h last).2 isFin) (merges.mp none)
    · rw [List.map_append, List.getLast?_append_of_ne_nil _ (by simpa using none)] at last
      have inRun : h ∈ run.map UdtPacket.hdr := List.mem_of_getLast? last
      have order := queue.order
      rw [stored.split, List.map_append, List.pairwise_append] at order
      cases kept with
      | nil => rfl
      | cons y kept =>
          have before := (order.2.2 h inRun y.hdr (by simp)).2.2
          rw [isFin] at before
          contradiction

/-- A packet in its place at `m_rcv_nxt` goes into `rcv_buf`. -/
theorem stored_merges (orderly : s.intake.Orderly) (needs : needsReass p.hdr)
    (places : s.intake.Places p.hdr) (starts : p.hdr.seq = s.cb.rcvNxt) :
    ∃ run, (s.stored p).sk.rcvBuf.pkts = s.sk.rcvBuf.pkts ++ p :: run := by
  have later := orderly.spaced.later orderly.later
  have ahead : ∀ x ∈ s.sk.rcvBuf.reasmPkts, x.hdr.seq ≠ s.cb.rcvNxt := fun x member same =>
    (later x.hdr (List.mem_map_of_mem member)).ne' (ahead_eq_zero.mpr same)
  have fits : p.hdr.len.toNat ≤ s.sk.rcvBuf.acc.toNat := (Nat.le_add_left _ _).trans places.1.1
  rw [stored, if_pos needs]
  rcases s.TCP_REASS_spec p with unstored | ⟨below, above, run, kept, stored⟩
  · rcases unstored.reason with ⟨below, x, above, queue, _, twin⟩ | ⟨_, _, full⟩
    · exact absurd (twin.trans starts) (ahead x (by rw [queue]; simp))
    · omega
  · obtain ⟨flags, _, _, result⟩ := stored.result
    have split := stored.split
    have first : below = [] := by
      rcases below with _ | ⟨x, below⟩
      · rfl
      · have less := ahead_lt_of_seqLt (stored.before x (by simp))
          (orderly.spaced.inside x.hdr (List.mem_map_of_mem (by rw [stored.queue]; simp))) places.1
        have none : p.hdr.ahead s.intake.rcvNxt = 0 := ahead_eq_zero.mpr starts
        omega
    rw [first, List.nil_append] at split
    cases run with
    | nil =>
        rw [List.nil_append] at split
        have stuck := stored.stuck
        rw [← split] at stuck
        have full := stuck (by simpa [takeRun] using starts)
        rw [acc_takeRun stored.room] at full
        simp only [totalLen_nil] at full
        omega
    | cons q run =>
        obtain ⟨rfl, _⟩ := List.cons.inj split
        exact ⟨run, by rw [result]; rfl⟩

theorem fin_iff (b : UdtBuf) : b.fin = true ↔
    ∃ x ∈ (b.pkts.map UdtPacket.hdr).getLast?, hasFin x.flags = true := by
  unfold UdtBuf.fin
  rw [List.getLast?_map]
  cases b.pkts.getLast? <;> simp

/-- The number the receiving half starts from with the packet. -/
def startNxt (s : Endpoint) (p : UdtPacket) : Word :=
  if hasSyn p.hdr.flags = true ∧ s.greets then p.hdr.seq + 1 else s.cb.rcvNxt

/-- A packet that is not dropped: a SYN that is accepted finds the queues empty or names the number
that is expected anyway, and what is for `TCP_REASS` has its place. -/
def Settles (s : Endpoint) (p : UdtPacket) : Prop :=
  s.admits p.hdr = true →
    (hasSyn p.hdr.flags = true → s.cb.state.value ≤ TcpState.established.value) →
    (s.startNxt p ≠ s.cb.rcvNxt → s.intake.queued = [] ∧ s.intake.waiting = []) ∧
    (needsReass p.hdr → { s.intake with rcvNxt := s.startNxt p }.Places p.counted.hdr)

instance (s : Endpoint) (p : UdtPacket) : Decidable (s.Settles p) :=
  inferInstanceAs (Decidable (_ → (_ → _) → _ ∧ (_ → _)))

theorem takes_early (taken : s.takes p) (isSyn : hasSyn p.hdr.flags = true) :
    s.cb.state.value ≤ TcpState.established.value := by
  have accepted := taken.2 isSyn
  rw [← s.entered_state p]
  unfold Endpoint.handleSyn at accepted
  dsimp only at accepted
  cases state : (s.entered p).cb.state <;> rw [state] at accepted <;>
    first | decide | contradiction

theorem synced_orderly (orderly : s.intake.Orderly)
    (fresh : s.startNxt p ≠ s.cb.rcvNxt → s.intake.queued = [] ∧ s.intake.waiting = []) :
    (s.synced p).intake.Orderly ∧ (s.synced p).intake =
      { (s.synced p).intake with
        rcvNxt := s.startNxt p, acc := s.intake.acc
        queued := s.intake.queued, waiting := s.intake.waiting } := by
  have synced := (s.synced_intake p).1
  unfold startNxt at fresh ⊢
  split at synced
  case isTrue greeted =>
    rw [if_pos greeted] at fresh ⊢
    rw [synced]
    refine ⟨?_, rfl⟩
    by_cases same : p.hdr.seq + 1 = s.cb.rcvNxt
    · rw [same]
      exact ⟨orderly.spaced, orderly.later, orderly.chain, orderly.fin⟩
    · obtain ⟨unread, empty⟩ := fresh same
      exact .of_empty empty orderly.chain
  case isFalse other =>
    rw [if_neg other, synced]
    exact ⟨orderly, rfl⟩

/-- What `input` does with a packet in its place leaves the queues in order. -/
theorem inputChecked_orderly (orderly : s.intake.Orderly) (settles : s.Settles p) :
    (s.inputChecked p).intake.Orderly := by
  by_cases taken : s.takes p
  case neg =>
    have intake := (s.inputChecked_intake p).1
    rw [if_neg taken] at intake
    rw [intake]
    exact orderly
  obtain ⟨fresh, places⟩ := settles taken.1 (takes_early taken)
  obtain ⟨synced, intake⟩ := synced_orderly orderly fresh
  have needs : needsReass p.counted.hdr → needsReass p.hdr := by
    unfold UdtPacket.counted
    split <;> exact id
  have stored : (s.reassembled p).intake.Orderly := by
    refine stored_orderly synced fun here => ?_
    rw [intake]
    exact places (needs here)
  rw [taken_intake taken]
  by_cases fin : s.comesToFin p
  · obtain ⟨x, last, isFin⟩ := (fin_iff _).mp fin.2.2.1
    exact .of_empty (stored.fin x last isFin) stored.chain
  · have same : (s.reassembled p).cb.rcvNxt +
        (if s.comesToFin p ∧ (s.synced p).cb.state.haveRcvdFin = false then 1 else 0) =
          (s.reassembled p).intake.rcvNxt := by
      rw [if_neg fun both => fin both.1]
      exact BitVec.add_zero _
    rw [same]
    exact stored

end Endpoint

namespace UdtBuf

/-- A read takes whole packets off the front and cuts the first one left. -/
theorem copyLoop_trims (ps : List UdtPacket) (seq : Word) (n : Nat) : ∃ gone kept k,
    ps = gone ++ kept ∧ (copyLoop ps seq n true).2 = trimmed k kept ∧
      ∀ p, kept.head? = some p → k ≤ p.hdr.len.toNat := by
  induction ps generalizing seq n with
  | nil => exact ⟨[], [], 0, rfl, rfl, by simp⟩
  | cons p rest ih =>
      by_cases partly : n < p.hdr.len.toNat
      · rw [copyLoop_partly partly]
        refine ⟨[], p :: rest, n, rfl, rfl, ?_⟩
        rintro q same
        obtain rfl := Option.some.inj same
        omega
      · rw [copyLoop_whole (Nat.le_of_not_lt partly)]
        split
        · obtain ⟨gone, kept, k, split, left, within⟩ :=
            ih (seq + p.hdr.len.setWidth 32) (n - p.hdr.len.toNat)
          exact ⟨p :: gone, kept, k, by rw [split, List.cons_append], left, within⟩
        · exact ⟨[p], rest, 0, rfl, (trimmed_zero rest).symm, fun _ _ => Nat.zero_le _⟩

theorem copy_trims (b : UdtBuf) (n : Nat) : ∃ gone kept k,
    b.pkts = gone ++ kept ∧ (b.copy n true).2.pkts = trimmed k kept ∧
      ∀ p, kept.head? = some p → k ≤ p.hdr.len.toNat := by
  rw [copy]
  cases queue : b.pkts with
  | nil => exact ⟨[], [], 0, rfl, queue, by simp⟩
  | cons p rest =>
      dsimp only
      split
      · exact ⟨[], p :: rest, 0, rfl, queue.trans (trimmed_zero _).symm, fun _ _ => Nat.zero_le _⟩
      · exact copyLoop_trims (p :: rest) p.hdr.seq n

/-- A read makes room. -/
theorem copy_acc {b : UdtBuf} (bounded : b.Bounded) (n : Nat) :
    b.acc.toNat ≤ (b.copy n true).2.acc.toNat := by
  obtain ⟨less, same⟩ := b.copy_cc n
  have bytes : (b.copy n true).1.length ≤ totalLen b.pkts := by
    rw [copy]
    cases queue : b.pkts with
    | nil => exact Nat.zero_le _
    | cons p rest =>
        dsimp only
        split
        · exact Nat.zero_le _
        · exact (Nat.le_add_right _ _).trans (copyLoop_total (p :: rest) p.hdr.seq n)
  have stored := bounded.total
  have limit := bounded.limit
  rw [BitVec.le_def] at limit
  have small := b.hiwat.isLt
  unfold acc
  rw [less, same]
  bv_omega

end UdtBuf

/-- What is left of a contiguous queue is contiguous, and its last packet ends where it did. -/
theorem trimmed_chain {gone kept : List UdtPacket} {k : Nat}
    (chain : ((gone ++ kept).map UdtPacket.hdr).IsChain fun x y => x.stop = y.seq)
    (within : ∀ p, kept.head? = some p → k ≤ p.hdr.len.toNat) :
    ((trimmed k kept).map UdtPacket.hdr).IsChain fun x y => x.stop = y.seq := by
  rw [List.map_append, List.isChain_append] at chain
  have rest := chain.2.1
  cases kept with
  | nil => exact .nil
  | cons p kept =>
      rw [List.map_cons, List.isChain_cons] at rest
      rw [trimmed, List.map_cons, List.isChain_cons]
      refine ⟨fun y head => ?_, rest.2⟩
      have same : (p.after k).hdr.stop = p.hdr.stop := UdtPacket.after_endSeq (within p rfl)
      rw [same]
      exact rest.1 y head

theorem trimmed_last {gone kept : List UdtPacket} {k : Nat} {x : UdtHdr}
    (last : x ∈ ((trimmed k kept).map UdtPacket.hdr).getLast?) :
    ∃ y ∈ ((gone ++ kept).map UdtPacket.hdr).getLast?, y.flags = x.flags := by
  cases kept with
  | nil => contradiction
  | cons p kept =>
      rw [List.map_append, List.getLast?_append_of_ne_nil _ (by simp)]
      rw [trimmed] at last
      cases kept with
      | nil =>
          obtain rfl : (p.after k).hdr = x := Option.some.inj last
          exact ⟨p.hdr, rfl, rfl⟩
      | cons q kept =>
          rw [List.map_cons, List.map_cons, List.getLast?_cons_cons] at last ⊢
          exact ⟨x, last, rfl⟩

def View.intake (v : View) : Intake where
  irs := v.irs
  rcvNxt := v.rcvNxt
  synAccepted := v.synAccepted
  acc := v.rcvBuf.acc
  queued := v.rcvBuf.pkts.map UdtPacket.hdr
  waiting := v.rcvBuf.reasmPkts.map UdtPacket.hdr

/-- What is stored stays under the limit, and the queues are in order. -/
structure View.Tidy (v : View) : Prop where
  bounded : v.rcvBuf.toUdtBuf.Bounded
  orderly : v.intake.Orderly

/-- A new limit leaves the room that what waits was given. -/
def UdtRcvBuf.Widens (b : UdtRcvBuf) (v : Word) : Prop :=
  b.cc ≤ v ∧ (b.hiwat ≤ v ∨ b.reasmPkts = [])

instance (b : UdtRcvBuf) (v : Word) : Decidable (b.Widens v) := inferInstanceAs (Decidable (_ ∧ _))

theorem Intake.Orderly.read {v : View} (tidy : v.Tidy) (n : Nat) :
    { v.intake with
      acc := (v.rcvBuf.toUdtBuf.copy n true).2.acc
      queued := (v.rcvBuf.toUdtBuf.copy n true).2.pkts.map UdtPacket.hdr }.Orderly := by
  obtain ⟨bounded, orderly⟩ := tidy
  have grown := UdtBuf.copy_acc bounded n
  obtain ⟨gone, kept, k, split, left, within⟩ := v.rcvBuf.toUdtBuf.copy_trims n
  have queued : v.intake.queued = (gone ++ kept).map UdtPacket.hdr := congrArg _ split
  rw [left]
  constructor
  · exact ⟨fun h member => (orderly.spaced.inside h member).mono grown, orderly.spaced.order⟩
  · exact orderly.later
  · exact trimmed_chain (queued ▸ orderly.chain) within
  · intro x last isFin
    obtain ⟨y, before, same⟩ : ∃ y ∈ ((gone ++ kept).map UdtPacket.hdr).getLast?,
        y.flags = x.flags := trimmed_last last
    rw [← queued] at before
    exact orderly.fin y before (by rw [same]; exact isFin)

/-- A step keeps what is stored under the limit. -/
theorem Step.bounded {v w : View} {a : Act} (step : Step v a w)
    (bounded : v.rcvBuf.toUdtBuf.Bounded) (limit : ∀ n, a = .rcvLimit n → v.rcvBuf.cc ≤ n) :
    w.rcvBuf.toUdtBuf.Bounded := by
  cases step with
  | transmit _ _ sends =>
      rw [sends.moved]
      exact bounded
  | store _ _ _ _ _ room => exact bounded.taken room le_rfl
  | @rewrite p mem =>
      have same : totalLen (v.rcvBuf.pkts.map fun q =>
          if q.buffer = p.buffer then { q with mem } else q) = totalLen v.rcvBuf.pkts := by
        simp only [totalLen, List.map_map]
        congr 1
        refine List.map_congr_left fun q _ => ?_
        dsimp only [Function.comp]
        split <;> rfl
      exact ⟨same.trans_le bounded.total, bounded.limit⟩
  | @dispatch op => exact bounded.step (.read op.buf.size.toNat) trivial
  | @discard n => exact bounded.step (.read n) trivial
  | @rcvLimit n => exact ⟨bounded.total, limit n rfl⟩
  | close => exact ⟨Nat.zero_le _, BitVec.le_def.mpr (Nat.zero_le _)⟩
  | _ => exact bounded

/-- A step between two packets leaves the queues tidy. -/
theorem Step.tidy {v w : View} {a : Act} (step : Step v a w) (tidy : v.Tidy) (here : a.Local)
    (limit : ∀ n, a = .rcvLimit n → v.rcvBuf.Widens n) : w.Tidy := by
  refine ⟨step.bounded tidy.bounded fun n same => (limit n same).1, ?_⟩
  have orderly := tidy.orderly
  cases step with
  | transmit _ _ sends =>
      rw [sends.moved]
      exact orderly
  | @dispatch op => exact Intake.Orderly.read tidy op.buf.size.toNat
  | @discard n => exact Intake.Orderly.read tidy n
  | @rcvLimit n =>
      obtain ⟨stored, raised | none⟩ := limit n rfl
      · have grown : v.rcvBuf.acc.toNat ≤ (n - v.rcvBuf.cc).toNat := by
          have inside := tidy.bounded.limit
          rw [BitVec.le_def] at inside stored raised
          unfold UdtBuf.acc
          bv_omega
        exact ⟨⟨fun h member => (orderly.spaced.inside h member).mono grown,
          orderly.spaced.order⟩, orderly.later, orderly.chain, orderly.fin⟩
      · exact .of_empty (congrArg (List.map UdtPacket.hdr) none) orderly.chain
  | close => exact .of_empty rfl .nil
  | restore | ack | sack | ackAll | syn | store | rewrite | fin => exact absurd here not_false
  | _ => exact orderly

namespace Endpoint

variable {s t : Endpoint} {p : UdtPacket} {e : Event}

/-- A packet has its place in the queues, and a new limit leaves the room that was given. -/
def Sorts (s : Endpoint) (e : Event) : Prop :=
  (∀ p ∈ s.arriving e, s.Settles p) ∧ ∀ v, e = .setRcvBuf v → s.sk.rcvBuf.Widens v

instance (s : Endpoint) (e : Event) : Decidable (s.Sorts e) :=
  have : Decidable (∀ v, e = .setRcvBuf v → s.sk.rcvBuf.Widens v) := by
    cases e with
    | setRcvBuf v => exact decidable_of_iff (s.sk.rcvBuf.Widens v) (by simp)
    | _ => exact isTrue (by simp)
  inferInstanceAs (Decidable (_ ∧ _))

theorem inputChecked_tidy (tidy : s.view.Tidy) (settles : s.Settles p) :
    (s.inputChecked p).view.Tidy := by
  have path : ViewPath (fun _ a => a.OfPacket) s.view (s.inputChecked p).view :=
    s.inputChecked_path p (PacketOk.of_all fun _ _ packet => packet)
  refine ⟨?_, inputChecked_orderly tidy.orderly settles⟩
  refine path.invariant (I := fun v => v.rcvBuf.toUdtBuf.Bounded) tidy.bounded ?_
  intro v a w bounded packet step
  refine step.bounded bounded fun n same => ?_
  rw [same] at packet
  exact absurd packet not_false

theorem step_tidy (tidy : s.view.Tidy) (sorts : s.Sorts e) : (s.step e).view.Tidy := by
  cases here : s.arriving e with
  | none =>
      have path := quiet_path (C := fun v a => a.Local ∧ ∀ n, a = .rcvLimit n → v.rcvBuf.Widens n)
        here (fun v a free other => ⟨free, fun n same => absurd same (other n)⟩)
        fun w same => ⟨trivial, fun n limit => by
          obtain rfl : w = n := by simpa using limit
          exact sorts.2 w same⟩
      exact path.invariant tidy fun v a w tidy met step => step.tidy tidy met.1 met.2
  | some p =>
      have settled := inputChecked_tidy tidy (sorts.1 p here)
      refine (arriving_path here).invariant settled fun v a w tidy tau step => ?_
      obtain rfl : a = .tau := tau
      exact step.tidy tidy trivial (by simp)

theorem init_tidy (fack sndSeq rcvSeq : Word) (env : Env) :
    (init fack sndSeq rcvSeq env).view.Tidy :=
  ⟨⟨Nat.zero_le _, BitVec.le_def.mpr (Nat.zero_le _)⟩, .of_empty rfl .nil⟩

end Endpoint

/-- What `check_reasm_pkts` and `check_rcv_pkts` assert, and that nothing waits which is not after
`m_rcv_nxt`. -/
structure UdtRcvBuf.Unwedged (b : UdtRcvBuf) (nxt : Word) : Prop where
  sorted : b.reasmPkts.Pairwise fun x y => seqLt x.hdr.seq y.hdr.seq ∧ seqLe x.endSeq y.hdr.seq
  contiguous : b.pkts.IsChain fun x y => x.endSeq = y.hdr.seq
  later : ∀ x ∈ b.reasmPkts, seqGt x.hdr.seq nxt

theorem View.Tidy.unwedged {v : View} (tidy : v.Tidy) : v.rcvBuf.Unwedged v.rcvNxt := by
  obtain ⟨-, orderly⟩ := tidy
  refine ⟨?_, (List.isChain_map _).mp orderly.chain, fun x member => ?_⟩
  · refine (List.pairwise_map.mp orderly.spaced.order).imp_of_mem fun {x y} _ high before => ?_
    exact before.seqLt (orderly.spaced.inside y.hdr (List.mem_map_of_mem high))
  · have here : x.hdr ∈ v.intake.waiting := List.mem_map_of_mem member
    have small := (orderly.spaced.inside x.hdr here).2
    have later := orderly.spaced.later orderly.later x.hdr here
    rw [seqGt_iff]
    change 0 < (x.hdr.seq - v.rcvNxt).toNat at later
    change (x.hdr.seq - v.rcvNxt).toNat + _ < _ at small
    omega

namespace Endpoint

/-- In every run in which each packet has its place, the queues are as the checks want them, after
each event and after each packet, and a packet that comes in order is merged. -/
theorem reasm_queue_unwedged (fack sndSeq rcvSeq : Word) (env : Env) (es : List Event)
    (sorts : Trace.Meets step Sorts (init fack sndSeq rcvSeq env) es) :
    let s := (init fack sndSeq rcvSeq env).run es
    s.sk.rcvBuf.Unwedged s.cb.rcvNxt ∧
      (∀ p, s.Settles p →
        (s.inputChecked p).sk.rcvBuf.Unwedged (s.inputChecked p).cb.rcvNxt) ∧
      ∀ p, needsReass p.hdr → s.intake.Places p.hdr → p.hdr.seq = s.cb.rcvNxt →
        ∃ run, (s.stored p).sk.rcvBuf.pkts = s.sk.rcvBuf.pkts ++ p :: run := by
  have tidy : ((init fack sndSeq rcvSeq env).run es).view.Tidy :=
    sorts.invariant (I := fun s => s.view.Tidy) (init_tidy fack sndSeq rcvSeq env)
      fun s e tidy sorts => step_tidy tidy sorts
  refine ⟨tidy.unwedged, fun p settles => (inputChecked_tidy tidy settles).unwedged,
    fun p needs places starts => stored_merges tidy.orderly needs places starts⟩

/-- Payload that starts at `seq`. -/
def bytesAt (seq : Word) (data : List UChar) : Event :=
  .datagram ⟨0, UdtHdr.TH_ACK, 1000, BitVec.ofNat 16 data.length, 20, seq, 1, 0⟩ data

/-- The second two bytes come before the first two. -/
theorem reasm_queue_unwedged_swapped :
    let s := (init 0 0 0 Env.zero).run (opened ++ [bytesAt 103 [3, 4]])
    s.sk.rcvBuf.reasmPkts.length = 1 ∧ s.sk.rcvBuf.Unwedged s.cb.rcvNxt :=
  ⟨by decide +kernel,
    (reasm_queue_unwedged 0 0 0 Env.zero (opened ++ [bytesAt 103 [3, 4]]) (by decide +kernel)).1⟩

/-- Two segments that overlap, out of order: the one that came first stays behind `m_rcv_nxt`, and
the one that comes next in order waits behind it. -/
theorem overlap_wedges :
    let s := (init 0 0 0 Env.zero).run
      (opened ++ [bytesAt 103 [3, 4, 5, 6], bytesAt 101 [1, 2, 3, 4], bytesAt 105 [5]])
    s.cb.rcvNxt = 105 ∧ s.sk.rcvBuf.reasmPkts.map (·.hdr.seq) = [103, 105] ∧
      ∃ x ∈ s.sk.rcvBuf.reasmPkts, ¬ seqGt x.hdr.seq s.cb.rcvNxt := by
  decide +kernel

end Endpoint

end UdtBoost
