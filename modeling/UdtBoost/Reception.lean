import UdtBoost.Ownership

/-! The receives of one socket. A datagram is written into the buffer that its receive was given, and
`handle_receive` passes on what `rcv_pkt_` points to by then. `connect` and `accept` assert the state in
which the two agree, but start their receive before that. -/
namespace UdtBoost

/-- A datagram is written over a packet, wherever that is queued. -/
def UdtPacket.overwritten (buffer : Nat) (hdr : UdtHdr) (mem : List UChar) (q : UdtPacket) : UdtPacket :=
  if q.buffer = buffer then { q with hdr, mem } else q

/-- A socket, what the packet buffers contain, and how many receives have completed. -/
structure Reception where
  socket : Endpoint
  memory : Nat → UdtHdr × List UChar
  completed : Nat

namespace Reception

/-- The buffers that datagrams will be written into, the oldest receive first. -/
def filling (r : Reception) : List Nat := r.socket.receives.drop r.completed

def filled (r : Reception) (buffer : Nat) (hdr : UdtHdr) (mem : List UChar) : Reception where
  socket :=
    { r.socket with
      sk.rcvBuf.pkts := r.socket.sk.rcvBuf.pkts.map (UdtPacket.overwritten buffer hdr mem)
      sk.rcvBuf.reasmPkts := r.socket.sk.rcvBuf.reasmPkts.map (UdtPacket.overwritten buffer hdr mem) }
  memory := Function.update r.memory buffer (hdr, mem)
  completed := r.completed + 1

/-- The packet that `handle_receive` passes to `input`. Without `rcv_pkt_` it passes none: there
`handleReceive` ignores the datagram. -/
def found (r : Reception) : UdtHdr × List UChar := r.memory (r.socket.sk.rcvPkt.getD 0)

/-- Receives complete in the order in which they were started, and nothing arrives without one. -/
def step (r : Reception) : Event → Reception
  | .packet hdr mem n =>
      match r.filling with
      | [] => r
      | buffer :: _ =>
          let r := r.filled buffer hdr mem
          { r with socket := r.socket.handleReceive r.found.1 r.found.2 n }
  | .receiveError value =>
      match r.filling with
      | [] => r
      | _ :: _ =>
          { r with socket := r.socket.handleReceiveError value, completed := r.completed + 1 }
  | e => { r with socket := r.socket.step e }

def run (r : Reception) (es : List Event) : Reception := es.foldl step r

def init (fack sndSeq rcvSeq : Word) (env : Env) (memory : Nat → UdtHdr × List UChar) : Reception :=
  ⟨.init fack sndSeq rcvSeq env, memory, 0⟩

/-- `async_connect` and `async_accept` start the only receive, and `close` finds none. -/
def Alone (r : Reception) : Event → Prop
  | .connect _ | .accept _ | .close => r.socket.sk.nextLayer = true → r.socket.sk.rcvPkt = none
  | _ => True

/-- The only receive of an open socket fills `rcv_pkt_`, and a closed one has none. -/
structure Sound (r : Reception) : Prop where
  calm : r.socket.Calm
  owned : r.socket.view.Owned
  counted : r.completed ≤ r.socket.receives.length
  single : r.filling = r.socket.sk.rcvPkt.toList
  idle : r.socket.sk.nextLayer = false → r.socket.sk.rcvPkt = none

variable {r : Reception} {e : Event}

theorem init_sound (fack sndSeq rcvSeq : Word) (env : Env) (memory : Nat → UdtHdr × List UChar) :
    (init fack sndSeq rcvSeq env memory).Sound where
  calm := Endpoint.init_calm fack sndSeq rcvSeq env
  owned := Endpoint.init_owned fack sndSeq rcvSeq env
  counted := Nat.le_refl 0
  single := rfl
  idle _ := rfl

theorem Sound.waits (sound : r.Sound) {b : Nat} {rest : List Nat} (filling : r.filling = b :: rest) :
    r.socket.sk.rcvPkt = some b ∧ rest = [] := by
  have single := sound.single
  rw [filling] at single
  cases pending : r.socket.sk.rcvPkt with
  | none => simp [pending] at single
  | some c =>
      rw [pending, Option.toList_some] at single
      obtain ⟨rfl, empty⟩ := List.cons.inj single
      exact ⟨rfl, empty⟩

theorem Sound.alive (sound : r.Sound) {b : Nat} (pending : r.socket.sk.rcvPkt = some b) :
    r.socket.sk.nextLayer = true := by
  by_contra shut
  rw [sound.idle (by simpa using shut)] at pending
  contradiction

theorem Sound.untouched (sound : r.Sound) {b : Nat} (pending : r.socket.sk.rcvPkt = some b)
    (hdr : UdtHdr) (mem : List UChar) : (r.filled b hdr mem).socket = r.socket := by
  have none := Endpoint.copies_pending sound.calm sound.owned pending
  have plain : ∀ ps : List UdtPacket, (ps.map (·.buffer)).count b = 0 →
      ps.map (UdtPacket.overwritten b hdr mem) = ps := by
    intro ps absent
    refine (List.map_congr_left fun q member => ?_).trans ps.map_id
    refine if_neg fun same => List.count_eq_zero.mp absent ?_
    exact same ▸ List.mem_map_of_mem member
  obtain ⟨queued, waiting⟩ := Nat.add_eq_zero_iff.mp none
  simp only [filled, plain _ queued, plain _ waiting]

/-- The datagram that arrives is the one that `input` sees. -/
theorem Sound.step_packet (sound : r.Sound) {b : Nat} (filling : r.filling = [b]) (hdr : UdtHdr)
    (mem : List UChar) (n : Nat) : r.step (.packet hdr mem n) =
      ⟨r.socket.handleReceive hdr mem n, Function.update r.memory b (hdr, mem), r.completed + 1⟩ := by
  obtain ⟨pending, -⟩ := sound.waits filling
  have same := sound.untouched pending hdr mem
  have found : (r.filled b hdr mem).found = (hdr, mem) := by
    rw [Reception.found, same, pending]
    exact Function.update_self b (hdr, mem) r.memory
  rw [step, filling]
  dsimp only
  rw [found, same]
  rfl

theorem step_call (noPacket : ∀ hdr mem n, e ≠ .packet hdr mem n)
    (noError : ∀ value, e ≠ .receiveError value) :
    r.step e = { r with socket := r.socket.step e } := by
  cases e with
  | packet hdr mem n => exact absurd rfl (noPacket hdr mem n)
  | receiveError value => exact absurd rfl (noError value)
  | _ => rfl

theorem Sound.step_socket (sound : r.Sound) (e : Event) :
    (r.step e).socket = r.socket ∨ (r.step e).socket = r.socket.step e := by
  cases e with
  | packet hdr mem n =>
      cases filling : r.filling with
      | nil =>
          rw [step, filling]
          exact .inl rfl
      | cons b rest =>
          obtain ⟨_, rfl⟩ := sound.waits filling
          rw [sound.step_packet filling]
          exact .inr rfl
  | receiveError value =>
      rw [step]
      cases r.filling with
      | nil => exact .inl rfl
      | cons => exact .inr rfl
  | _ => exact .inr rfl

theorem Sound.calm_owned (sound : r.Sound) (e : Event) :
    (r.step e).socket.Calm ∧ (r.step e).socket.view.Owned := by
  rcases sound.step_socket e with same | step
  · rw [same]
    exact ⟨sound.calm, sound.owned⟩
  · rw [step]
    exact ⟨r.socket.step_calm e sound.calm, Endpoint.step_owned sound.calm sound.owned e⟩

theorem filling_append (counted : r.completed ≤ r.socket.receives.length) {t : Reception} {b : Nat}
    (completed : t.completed = r.completed) (receives : t.socket.receives = r.socket.receives ++ [b]) :
    t.filling = r.filling ++ [b] := by
  rw [filling, completed, receives, List.drop_append_of_le_length counted]
  rfl

theorem filling_tail {t : Reception} {more : List Nat} (completed : t.completed = r.completed + 1)
    (receives : t.socket.receives = r.socket.receives ++ more)
    (counted : r.completed + 1 ≤ r.socket.receives.length) :
    t.filling = r.filling.tail ++ more := by
  rw [filling, completed, receives, List.drop_append_of_le_length counted, filling, List.tail_drop]

theorem counted_of_filling {b : Nat} {rest : List Nat} (filling : r.filling = b :: rest) :
    r.completed + 1 ≤ r.socket.receives.length := by
  have some_ := congrArg List.length filling
  rw [Reception.filling, List.length_drop, List.length_cons] at some_
  omega

theorem Sound.still (sound : r.Sound) (e : Event) (completed : (r.step e).completed = r.completed)
    (slot : (r.step e).socket.slot = r.socket.slot)
    (idle : (r.step e).socket.sk.nextLayer = false → r.socket.sk.rcvPkt = none) : (r.step e).Sound := by
  have pending : (r.step e).socket.sk.rcvPkt = r.socket.sk.rcvPkt := congrArg (·.2.1) slot
  have receives : (r.step e).socket.receives = r.socket.receives := congrArg (·.2.2) slot
  obtain ⟨calm, owned⟩ := sound.calm_owned e
  refine { calm, owned, counted := ?_, single := ?_, idle := fun shut => pending.trans (idle shut) }
  · rw [completed, receives]
    exact sound.counted
  · rw [filling, completed, receives, pending]
    exact sound.single

theorem Sound.started (sound : r.Sound) (starts : Endpoint.Starts e) (alone : r.Alone e) :
    (r.step e).Sound := by
  have step : (r.step e).socket = r.socket.step e ∧ (r.step e).completed = r.completed := by
    cases e with
    | connect | accept => exact ⟨rfl, rfl⟩
    | _ => exact absurd starts not_false
  by_cases alive : r.socket.sk.nextLayer = true
  case neg =>
    have same : (r.step e).socket = r.socket :=
      step.1.trans (Endpoint.step_starts_shut starts alive)
    exact sound.still e step.2 (congrArg Endpoint.slot same)
      fun _ => sound.idle (by simpa using alive)
  case pos =>
    have empty : r.socket.sk.rcvPkt = none := by
      cases e with
      | connect | accept => exact alone alive
      | _ => exact absurd starts not_false
    obtain ⟨calm, owned⟩ := sound.calm_owned e
    obtain ⟨b, slot, _⟩ := r.socket.doReceive_slot alive
    have started : (r.step e).socket.slot = (r.socket.cb.flags.packetConsumed, some b,
        r.socket.receives ++ [b]) := by
      rw [step.1, Endpoint.step_starts starts alive, slot]
    have pending : (r.step e).socket.sk.rcvPkt = some b := congrArg (·.2.1) started
    have receives : (r.step e).socket.receives = r.socket.receives ++ [b] := congrArg (·.2.2) started
    refine { calm, owned, counted := ?_, single := ?_, idle := fun shut => ?_ }
    · rw [step.2, receives, List.length_append]
      exact Nat.le_add_right_of_le sound.counted
    · rw [filling_append sound.counted step.2 receives, sound.single, empty, pending]
      rfl
    · rw [step.1, Endpoint.step_open (by rintro rfl; exact absurd starts not_false), alive] at shut
      contradiction

theorem Sound.packet (sound : r.Sound) (hdr : UdtHdr) (mem : List UChar) (n : Nat) :
    (r.step (.packet hdr mem n)).Sound := by
  cases filling : r.filling with
  | nil =>
      rw [Reception.step, filling]
      exact sound
  | cons b rest =>
      obtain ⟨pending, rfl⟩ := sound.waits filling
      obtain ⟨calm, owned⟩ := sound.calm_owned (.packet hdr mem n)
      have alive := sound.alive pending
      have enough := counted_of_filling filling
      have open_ : (r.socket.step (.packet hdr mem n)).sk.nextLayer = true :=
        (Endpoint.step_open (by simp)).trans alive
      obtain ⟨next, waits, receives, _⟩ :=
        Endpoint.handleReceive_slot sound.calm sound.owned alive pending hdr mem n
      rw [sound.step_packet filling] at calm owned ⊢
      refine { calm, owned, counted := ?_, single := ?_, idle := fun shut => ?_ }
      · refine enough.trans ?_
        rw [receives, List.length_append]
        exact Nat.le_add_right _ _
      · rw [filling_tail (r := r) rfl receives enough, filling, waits]
        rfl
      · exact absurd (open_.symm.trans shut) (by decide)

theorem Sound.receiveError (sound : r.Sound) (value : Int) : (r.step (.receiveError value)).Sound := by
  cases filling : r.filling with
  | nil =>
      rw [Reception.step, filling]
      exact sound
  | cons b rest =>
      obtain ⟨pending, rfl⟩ := sound.waits filling
      obtain ⟨calm, owned⟩ := sound.calm_owned (.receiveError value)
      have enough := counted_of_filling filling
      have step : r.step (.receiveError value) =
          { r with socket := r.socket.handleReceiveError value, completed := r.completed + 1 } := by
        rw [Reception.step, filling]
      have receives := r.socket.handleReceiveError_receives value
      have open_ : (r.socket.step (.receiveError value)).sk.nextLayer = true :=
        (Endpoint.step_open (by simp)).trans (sound.alive pending)
      have released := r.socket.handleReceiveError_released value open_
      rw [step] at calm owned ⊢
      refine { calm, owned, counted := ?_, single := ?_, idle := fun _ => released }
      · exact receives ▸ enough
      · rw [filling_tail (r := r) rfl (receives.trans (List.append_nil _).symm) enough, filling, released]
        rfl

theorem Sound.step (sound : r.Sound) (alone : r.Alone e) : (r.step e).Sound := by
  cases e with
  | connect | accept => exact sound.started trivial alone
  | packet hdr mem n => exact sound.packet hdr mem n
  | receiveError value => exact sound.receiveError value
  | close =>
      have slot : r.socket.close.slot = r.socket.slot :=
        Endpoint.step_slot (e := .close) not_false (by simp) (by simp)
      refine sound.still .close rfl slot fun _ => ?_
      by_cases alive : r.socket.sk.nextLayer = true
      · exact alone alive
      · exact sound.idle (by simpa using alive)
  | _ =>
      refine sound.still _ rfl (Endpoint.step_slot not_false (by simp) (by simp)) fun shut => ?_
      exact sound.idle ((Endpoint.step_open (by simp)).symm.trans shut)

theorem Sound.run (sound : r.Sound) {es : List Event} (alone : Trace.Meets Reception.step Alone r es) :
    (r.run es).Sound :=
  alone.invariant sound fun _ _ sound alone => sound.step alone

theorem Sound.step_path (sound : r.Sound) (e : Event) :
    ViewPath (fun _ _ => True) r.socket.view (r.step e).socket.view := by
  rcases sound.step_socket e with same | step
  · rw [same]
    exact .refl _
  · rw [step]
    exact r.socket.step_path e (fun _ => trivial)
      (Endpoint.EventOk.of_all (fun _ _ _ _ => trivial) (fun _ _ _ => trivial) fun _ _ => trivial)

theorem Sound.run_path (sound : r.Sound) {es : List Event}
    (alone : Trace.Meets Reception.step Alone r es) :
    ViewPath (fun _ _ => True) r.socket.view (r.run es).socket.view := by
  induction es generalizing r with
  | nil => exact .refl _
  | cons e es ih => exact (sound.step_path e).trans (ih (sound.step alone.1) alone.2)

theorem Sound.never_held (sound : r.Sound) {es : List Event}
    (alone : Trace.Meets Reception.step Alone r es) {b : Nat}
    (pending : (r.run es).socket.sk.rcvPkt = some b) : r.socket.copies b = 0 := by
  obtain ⟨_, waited⟩ := ViewPath.pending (sound.run_path alone)
  rcases waited b pending with here | later
  · exact Endpoint.copies_pending sound.calm sound.owned here
  · exact Endpoint.copies_later sound.owned later

/-- A waiting buffer is given up when `input` has kept its packet, or freed on an error. -/
theorem Sound.gives_up (sound : r.Sound) {b : Nat} (pending : r.socket.sk.rcvPkt = some b)
    (gone : (r.step e).socket.sk.rcvPkt ≠ some b) :
    (∃ value, e = .receiveError value) ∨ ∃ hdr mem n x, e = .packet hdr mem n ∧
      r.socket.committing hdr mem n b = some x ∧ x.copies b = 1 := by
  by_cases error : ∃ value, e = .receiveError value
  · exact .inl error
  by_cases packet : ∃ hdr mem n, e = .packet hdr mem n
  case pos =>
    obtain ⟨hdr, mem, n, rfl⟩ := packet
    refine .inr ⟨hdr, mem, n, ?_⟩
    cases filling : r.filling with
    | nil =>
        rw [Reception.step, filling] at gone
        exact absurd pending gone
    | cons c rest =>
        obtain ⟨here, rfl⟩ := sound.waits filling
        rw [sound.step_packet filling] at gone
        obtain ⟨next, waits, _, same | ⟨x, committing, one⟩⟩ :=
          Endpoint.handleReceive_slot sound.calm sound.owned (sound.alive pending) pending hdr mem n
        · exact absurd (same ▸ waits) gone
        · exact ⟨x, rfl, committing, one⟩
  have noPacket : ∀ hdr mem n, e ≠ .packet hdr mem n := fun hdr mem n same => packet ⟨hdr, mem, n, same⟩
  have noError : ∀ value, e ≠ .receiveError value := fun value same => error ⟨value, same⟩
  rw [step_call noPacket noError] at gone
  change (r.socket.step e).sk.rcvPkt ≠ some b at gone
  refine absurd ?_ gone
  by_cases starts : Endpoint.Starts e
  · by_cases alive : r.socket.sk.nextLayer = true
    · obtain ⟨next, slot, same | ⟨none, _⟩⟩ := r.socket.doReceive_slot alive
      · rw [← pending, same]
        exact congrArg (·.2.1) ((Endpoint.step_starts starts alive).trans slot)
      · rw [pending] at none
        contradiction
    · rw [Endpoint.step_starts_shut starts alive]
      exact pending
  · exact (congrArg (·.2.1) (Endpoint.step_slot starts noPacket noError)).trans pending

/-- What is asked of the packet buffers after a run, and of the answer to the next datagram. -/
structure BuffersOwned (r₀ : Reception) (es : List Event) : Prop where
  kept : ∀ b hdr mem n, (r₀.run es).socket.sk.rcvPkt = some b →
    (((r₀.run es).socket.input ⟨hdr, mem, b⟩ n).1 = true ↔
      ∃ x, (r₀.run es).socket.committing hdr mem n b = some x ∧ x.copies b = 1)
  returned : ∀ b hdr mem n, (r₀.run es).socket.sk.rcvPkt = some b →
    (((r₀.run es).socket.input ⟨hdr, mem, b⟩ n).1 = false ↔
      (∀ before, before <+: es → (r₀.run before).socket.copies b = 0) ∧
        ∀ x, (r₀.run es).socket.committing hdr mem n b = some x → x.copies b = 0)
  once : ∀ b, (r₀.run es).socket.copies b ≤ 1
  /-- A datagram will be written only into a buffer that waits for it: no queued or freed one, and no
  other datagram into the same. -/
  filled : (r₀.run es).filling.Nodup ∧ ∀ b ∈ (r₀.run es).filling,
    (r₀.run es).socket.sk.rcvPkt = some b ∧ (r₀.run es).socket.copies b = 0
  unused : ∀ b, (r₀.run es).socket.sk.rcvPkt = some b → (r₀.run es).socket.copies b = 0
  handed : ∀ b e, (r₀.run es).socket.sk.rcvPkt = some b →
    ((r₀.run es).step e).socket.sk.rcvPkt ≠ some b →
    (∃ value, e = .receiveError value) ∨ ∃ hdr mem n x, e = .packet hdr mem n ∧
      (r₀.run es).socket.committing hdr mem n b = some x ∧ x.copies b = 1
  closed : (r₀.run es).socket.sk.nextLayer = false → (r₀.run es).socket.sk.rcvPkt = none

theorem Sound.buffers_owned {r₀ : Reception} (start : r₀.Sound) {es : List Event}
    (alone : Trace.Meets Reception.step Alone r₀ es) : BuffersOwned r₀ es := by
  have sound := start.run alone
  refine ⟨?_, ?_, fun b => Endpoint.copies_le sound.owned, ?_,
    fun b pending => Endpoint.copies_pending sound.calm sound.owned pending,
    fun b e pending gone => sound.gives_up pending gone, sound.idle⟩
  · intro b hdr mem n pending
    exact (Endpoint.input_answer sound.calm sound.owned pending).1
  · intro b hdr mem n pending
    rw [(Endpoint.input_answer sound.calm sound.owned pending).2]
    refine ⟨fun absent => ⟨?_, absent⟩, And.right⟩
    rintro before ⟨after, rfl⟩
    obtain ⟨first, later⟩ := Trace.meets_append.mp alone
    have split : r₀.run (before ++ after) = (r₀.run before).run after := List.foldl_append ..
    rw [split] at pending
    exact (start.run first).never_held later pending
  · rw [sound.single]
    refine ⟨by cases (r₀.run es).socket.sk.rcvPkt <;> simp, fun b member => ?_⟩
    have pending := Option.mem_toList.mp member
    exact ⟨pending, Endpoint.copies_pending sound.calm sound.owned pending⟩

/-- A second receive fills the buffer of the first, and a buffer of a closed socket is never freed. -/
theorem Sound.alone_of_owned {r₀ : Reception} {es : List Event} (sound : (r₀.run es).Sound)
    (owned : BuffersOwned r₀ (es ++ [e])) : (r₀.run es).Alone e := by
  have last : r₀.run (es ++ [e]) = (r₀.run es).step e := List.foldl_concat ..
  have started : Endpoint.Starts e → (r₀.run es).socket.sk.nextLayer = true →
      (r₀.run es).socket.sk.rcvPkt = none := by
    intro starts alive
    by_contra busy
    obtain ⟨b, pending⟩ := Option.ne_none_iff_exists'.mp busy
    obtain ⟨next, slot, same | ⟨none, _⟩⟩ := (r₀.run es).socket.doReceive_slot alive
    case inr => exact busy none
    have call : (r₀.run es).step e =
        { r₀.run es with socket := (r₀.run es).socket.step e } := by
      refine step_call ?_ ?_ <;> (intros; rintro rfl; exact absurd starts not_false)
    have receives : ((r₀.run es).step e).socket.receives = (r₀.run es).socket.receives ++ [next] := by
      rw [call]
      exact congrArg (·.2.2) ((Endpoint.step_starts starts alive).trans slot)
    have filling := filling_append sound.counted (t := (r₀.run es).step e) (by rw [call]) receives
    rw [sound.single, same] at filling
    have twice := owned.filled.1
    rw [last, filling] at twice
    exact absurd twice (by simp)
  cases e with
  | connect | accept => exact started trivial
  | close =>
      intro alive
      have shut : ((r₀.run es).step .close).socket.sk.nextLayer = false := by
        change (r₀.run es).socket.close.sk.nextLayer = false
        rw [Endpoint.close, if_pos alive]
      have idle := owned.closed
      rw [last] at idle
      have slot : (r₀.run es).socket.close.slot = (r₀.run es).socket.slot :=
        Endpoint.step_slot (e := .close) not_false (by simp) (by simp)
      exact (congrArg (·.2.1) slot).symm.trans (idle shut)
  | _ => trivial

/-- Along every run, `input` answers for the buffer of its datagram, and buffers are neither shared nor
reused nor lost, exactly as long as each receive is started where none is pending and the socket is
closed where none is. -/
theorem buffers_owned_iff (fack sndSeq rcvSeq : Word) (env : Env) (memory : Nat → UdtHdr × List UChar)
    (es : List Event) :
    (∀ before, before <+: es → BuffersOwned (init fack sndSeq rcvSeq env memory) before) ↔
      Trace.Meets step Alone (init fack sndSeq rcvSeq env memory) es := by
  have start := init_sound fack sndSeq rcvSeq env memory
  generalize init fack sndSeq rcvSeq env memory = r₀ at start
  constructor
  · intro owned
    induction es using List.reverseRecOn with
    | nil => trivial
    | append_singleton es e ih =>
        have alone := ih fun before first => owned before (first.trans (List.prefix_append es [e]))
        have last := (start.run alone).alone_of_owned (owned _ (List.prefix_refl _))
        exact Trace.meets_append.mpr ⟨alone, last, trivial⟩
  · rintro alone before ⟨after, rfl⟩
    exact start.buffers_owned (Trace.meets_append.mp alone).1

/-- A fresh socket over memory that is all zero. -/
def fresh : Reception := init 0 0 0 Env.zero fun _ => (⟨0, 0, 0, 0, 0, 0, 0, 0⟩, [])

/-- The aborted receive of a closed socket completes, and its buffer is still there. -/
theorem closed_while_receiving_leaks :
    ¬ BuffersOwned fresh [.accept 0, .close, .receiveError 995] := by
  intro owned
  have left : (fresh.run [.accept 0, .close, .receiveError 995]).socket.sk.rcvPkt = some 1 := rfl
  rw [owned.closed rfl] at left
  contradiction

/-- The assertion of `accept` comes after the second receive into one buffer. -/
example : (fresh.run [.accept 0, .accept 1]).filling = [1, 1] := rfl

end Reception

end UdtBoost
