import UdtBoost.ByteQueue
import UdtBoost.Excerpt
import UdtBoost.Options
import UdtBoost.Ownership

/-! The stream on its way in, held against the stream the peer has sent. What was handed to the user
and what waits in `rcv_buf` is a prefix of it, and `m_rcv_nxt` tells how long that is. -/
namespace UdtBoost

/-- A number that was reached, and is not taken back. Zero is the number before the peer's SYN. -/
def Reached (a r : Word) : Prop := a ≠ 0 ∧ r ≠ 0 ∧ (a - 1).toNat ≤ (r - 1).toNat

def Advances (a b : Word) : Prop := a ≠ 0 → Reached a b

theorem Advances.refl (a : Word) : Advances a a := fun some_ => ⟨some_, some_, Nat.le_refl _⟩

theorem Reached.trans {a b c : Word} (first : Reached a b) (second : Advances b c) : Reached a c := by
  obtain ⟨_, later, order⟩ := second first.2.1
  exact ⟨first.1, later, first.2.2.trans order⟩

theorem Advances.trans {a b c : Word} (first : Advances a b) (second : Advances b c) :
    Advances a c :=
  fun some_ => (first some_).trans second

theorem reached_of_le {m n : Nat} (less : m ≤ n) (small : n < 2 ^ 31) :
    Reached (1 + BitVec.ofNat 32 m) (1 + BitVec.ofNat 32 n) := by
  have toNat : ∀ {k : Nat}, k ≤ n → (1 + BitVec.ofNat 32 k).toNat = 1 + k := by
    intro k inside
    rw [BitVec.toNat_add, BitVec.toNat_ofNat]
    change (1 + k % 2 ^ 32) % 2 ^ 32 = 1 + k
    omega
  have some_ : ∀ {k : Nat}, k ≤ n → 1 + BitVec.ofNat 32 k ≠ 0 := by
    intro k inside zero
    have contra := congrArg BitVec.toNat zero
    rw [toNat inside] at contra
    change 1 + k = 0 at contra
    omega
  refine ⟨some_ less, some_ (Nat.le_refl n), ?_⟩
  rw [Excerpt.position_toNat _ (by omega), Excerpt.position_toNat _ (by omega)]
  exact less

/-- Bytes a receive handler was given. -/
def Completion.receivedBytes : Completion → List UChar
  | .received _ _ bytes => bytes
  | _ => []

/-- What of an endpoint the stream on its way in depends on. -/
structure Incoming where
  nextLayer : Bool
  rcvNxt : Word
  pkts : List UdtPacket
  waiting : List UdtPacket
  given : List UChar
  finHandled : Bool

/-- What is in order: bytes the user has, and bytes for him in `rcv_buf`. -/
def Incoming.taken (x : Incoming) : List UChar := x.given ++ payload x.pkts

def View.incoming (v : View) : Incoming where
  nextLayer := v.nextLayer
  rcvNxt := v.rcvNxt
  pkts := v.rcvBuf.pkts
  waiting := v.rcvBuf.reasmPkts
  given := v.posted.flatMap Completion.receivedBytes
  finHandled := v.finHandled

/-- The packet tells the truth about a stream whose first byte is numbered 1, and a FIN comes only
when the stream is over. -/
structure UdtPacket.Genuine (stream : List UChar) (ended : Prop) (q : UdtPacket) : Prop where
  sound : q.Sound
  here : Excerpt.At 1 stream q.hdr.seq q.data
  fin : hasFin q.hdr.flags = true → ended ∧ q.endSeq = 1 + BitVec.ofNat 32 stream.length

/-- The stream on its way in. Its FIN was counted at most `fins` times. -/
structure Drawing (stream : List UChar) (ended : Prop) (fins : Nat) (x : Incoming) : Prop where
  short : stream.length + fins < 2 ^ 31
  taken : x.taken <+: stream
  count : x.nextLayer = true → x.rcvNxt = 0 ∧ x.taken = [] ∨
    ∃ k ≤ fins, x.rcvNxt = 1 + BitVec.ofNat 32 (x.taken.length + k) ∧ (k ≠ 0 → ended ∧ x.taken = stream)
  sound : ∀ q ∈ x.pkts, q.Sound
  fin : ∀ q ∈ x.pkts, hasFin q.hdr.flags = true → ended ∧ x.taken = stream ∧ x.rcvNxt ≠ 0
  done : x.finHandled = true → ended ∧ (x.nextLayer = true → x.taken = stream)
  waiting : ∀ q ∈ x.waiting, q.Genuine stream ended

section Copies

variable {ps left : List UdtPacket} {bytes : List UChar} {seq : Word} {n : Nat}

theorem UdtBuf.copyLoop_reads (sound : ∀ p ∈ ps, p.Sound) (some_ : 0 < n) :
    Leaves ps (copyLoop ps seq n true).1 (copyLoop ps seq n true).2 := by
  induction ps generalizing seq n with
  | nil => exact Leaves.refl []
  | cons p rest ih =>
      obtain ⟨here, later⟩ := List.forall_mem_cons.mp sound
      by_cases partly : n < p.hdr.len.toNat
      · rw [copyLoop_partly partly]
        refine ⟨[], p :: rest, n, rfl, rfl, ?_, ?_⟩
        · rintro q same
          obtain rfl := Option.some.inj same
          exact Nat.le_of_lt partly
        · rw [payload_cons, List.take_append_of_le_length (by rw [here.data_length]; omega)]
          rfl
      · rw [copyLoop_whole (Nat.le_of_not_lt partly)]
        split
        · next more => exact (ih later more.2).cons
        · have read : Leaves (p :: rest) (p.data ++ []) rest := (Leaves.refl rest).cons
          rwa [List.append_nil] at read

theorem UdtBuf.copy_reads {b : UdtBuf} (sound : ∀ p ∈ b.pkts, p.Sound) (n : Nat) :
    Leaves b.pkts (b.copy n true).1 (b.copy n true).2.pkts := by
  cases queue : b.pkts with
  | nil =>
      rw [copy, queue]
      dsimp only
      rw [queue]
      exact Leaves.refl []
  | cons p rest =>
      rw [queue] at sound
      by_cases none : n = 0
      · rw [copy, queue]
        simp only [none, if_true, queue]
        exact Leaves.refl _
      · rw [copy, queue]
        simp only [none, if_false]
        exact copyLoop_reads sound (Nat.pos_of_ne_zero none)

/-- A packet that is left was there before, and only its front may have been read. -/
theorem Leaves.origin (leaves : Leaves ps bytes left) {q : UdtPacket} (member : q ∈ left) :
    ∃ p ∈ ps, ∃ k ≤ p.hdr.len.toNat, q = p.after k := by
  obtain ⟨gone, kept, k, rfl, rfl, within, -⟩ := leaves
  cases kept with
  | nil => contradiction
  | cons p kept =>
      rcases List.mem_cons.mp member with rfl | later
      · exact ⟨p, by simp, k, within p rfl, rfl⟩
      · exact ⟨q, by simp [later], 0, Nat.zero_le _, (UdtPacket.after_zero q).symm⟩

end Copies

namespace Drawing

variable {stream : List UChar} {ended : Prop} {fins : Nat} {x : Incoming}

theorem read (d : Drawing stream ended fins x) {bytes : List UChar} {left : List UdtPacket}
    (leaves : Leaves x.pkts bytes left) :
    Drawing stream ended fins { x with pkts := left, given := x.given ++ bytes } := by
  have same : Incoming.taken { x with pkts := left, given := x.given ++ bytes } = x.taken := by
    change (x.given ++ bytes) ++ payload left = x.given ++ payload x.pkts
    rw [List.append_assoc, leaves.payload_eq d.sound]
  refine ⟨d.short, same ▸ d.taken, fun alive => ?_, leaves.sound d.sound, fun q member fin => ?_,
    fun handled => ?_, d.waiting⟩
  · rw [same]
    exact d.count alive
  · obtain ⟨p, before, k, _, rfl⟩ := leaves.origin member
    rw [same]
    exact d.fin p before fin
  · rw [same]
    exact d.done handled

theorem closed (d : Drawing stream ended fins x) :
    Drawing stream ended fins { x with nextLayer := false, pkts := [], waiting := [] } where
  short := d.short
  taken := by
    have given : x.given <+: x.taken := List.prefix_append _ _
    change x.given ++ [] <+: stream
    rw [List.append_nil]
    exact given.trans d.taken
  count open_ := absurd open_ (by simp)
  sound := by simp
  fin := by simp
  done handled := ⟨(d.done handled).1, fun open_ => absurd open_ (by simp)⟩
  waiting := by simp

/-- The SYN that opens the stream is counted, for the first time or again. -/
theorem greeted (d : Drawing stream ended fins x) (alive : x.nextLayer = true)
    (inside : (x.rcvNxt - 1).toInt ≤ 0) : Drawing stream ended fins { x with rcvNxt := 1 } ∧
      Advances x.rcvNxt 1 := by
  have short := d.short
  rcases d.count alive with ⟨zero, none⟩ | ⟨k, few, number, finished⟩
  · refine ⟨⟨d.short, d.taken, fun _ => .inr ⟨0, Nat.zero_le _, ?_, by simp⟩, d.sound,
      fun q member fin => absurd zero (d.fin q member fin).2.2, d.done, d.waiting⟩,
      fun some_ => absurd zero some_⟩
    change (1 : Word) = 1 + BitVec.ofNat 32 (x.taken.length + 0)
    rw [none]
    rfl
  · have length := d.taken.length_le
    have still : x.taken.length + k = 0 := by
      by_contra some_
      have position : (x.rcvNxt - 1).toNat = x.taken.length + k := by
        rw [number, Excerpt.position_toNat _ (by omega)]
      have positive : (x.rcvNxt - 1).toInt = (x.rcvNxt - 1).toNat :=
        BitVec.toInt_eq_toNat_of_lt (by omega)
      omega
    have one : x.rcvNxt = 1 := by
      rw [number, still]
      rfl
    have same : { x with rcvNxt := 1 } = x := by rw [← one]
    rw [same, one]
    exact ⟨d, Advances.refl 1⟩

theorem taken_append (x : Incoming) (q : UdtPacket) (nxt : Word) :
    Incoming.taken { x with rcvNxt := nxt, pkts := x.pkts ++ [q] } = x.taken ++ q.data := by
  change x.given ++ payload (x.pkts ++ [q]) = (x.given ++ payload x.pkts) ++ q.data
  rw [payload_append, payload_cons, payload_nil, List.append_nil, List.append_assoc]

theorem append_nothing (d : Drawing stream ended fins x) {q : UdtPacket} (sound : q.Sound)
    (none : q.data = [])
    (fin : hasFin q.hdr.flags = true → ended ∧ x.taken = stream ∧ x.rcvNxt ≠ 0) :
    Drawing stream ended fins { x with pkts := x.pkts ++ [q] } := by
  have same : Incoming.taken { x with pkts := x.pkts ++ [q] } = x.taken := by
    rw [taken_append x q x.rcvNxt, none, List.append_nil]
  refine ⟨d.short, same ▸ d.taken, fun alive => same ▸ d.count alive,
    List.forall_mem_append.mpr ⟨d.sound, List.forall_mem_singleton.mpr sound⟩, ?_,
    fun handled => same ▸ d.done handled, d.waiting⟩
  rw [same]
  exact List.forall_mem_append.mpr ⟨d.fin, List.forall_mem_singleton.mpr fin⟩

/-- The next data of the stream goes into `rcv_buf`, where no FIN was counted. -/
theorem append_next (d : Drawing stream ended fins x) {q : UdtPacket}
    (genuine : q.Genuine stream ended) (next : q.hdr.seq = x.rcvNxt)
    (number : x.rcvNxt = 1 + BitVec.ofNat 32 x.taken.length) :
    Drawing stream ended fins { x with
        rcvNxt := x.rcvNxt + BitVec.ofNat 32 q.data.length, pkts := x.pkts ++ [q] } ∧
      Advances x.rcvNxt (x.rcvNxt + BitVec.ofNat 32 q.data.length) := by
  have short := d.short
  have here := genuine.here
  rw [next, number] at here
  have more := here.next (by omega) d.taken.length_le
  rw [← List.prefix_iff_eq_take.mp d.taken] at more
  have length := more.length_le
  rw [List.length_append] at length
  have number' : x.rcvNxt + BitVec.ofNat 32 q.data.length =
      1 + BitVec.ofNat 32 (x.taken.length + q.data.length) := by
    rw [number, BitVec.ofNat_add, BitVec.add_assoc]
  have whole : stream.length ≤ x.taken.length + q.data.length → x.taken ++ q.data = stream :=
    fun all => more.eq_of_length_le (by rwa [List.length_append])
  have some_ : x.rcvNxt + BitVec.ofNat 32 q.data.length ≠ 0 := by
    rw [number']
    exact (reached_of_le (Nat.le_refl _) (by omega)).1
  refine ⟨⟨d.short, ?_, fun _ => .inr ⟨0, Nat.zero_le _, ?_, by simp⟩,
    List.forall_mem_append.mpr ⟨d.sound, List.forall_mem_singleton.mpr genuine.sound⟩, ?_,
    fun handled => ?_, d.waiting⟩, fun _ => ?_⟩
  · rw [taken_append]
    exact more
  · rw [taken_append, List.length_append]
    exact number'
  · rw [taken_append]
    refine List.forall_mem_append.mpr ⟨fun p member fin => ?_, List.forall_mem_singleton.mpr ?_⟩
    · obtain ⟨over_, all, _⟩ := d.fin p member fin
      exact ⟨over_, whole (by rw [all]; exact Nat.le_add_right _ _), some_⟩
    · intro fin
      obtain ⟨over_, stop⟩ := genuine.fin fin
      refine ⟨over_, whole ?_, some_⟩
      have ends : q.endSeq = x.rcvNxt + BitVec.ofNat 32 q.data.length := by
        rw [UdtPacket.endSeq, next, genuine.sound.data_length]
        bv_omega
      rw [ends, number'] at stop
      have position := congrArg (fun n : Word => (n - 1).toNat) stop
      rw [Excerpt.position_toNat _ (by omega), Excerpt.position_toNat _ (by omega)] at position
      exact Nat.le_of_eq position.symm
  · rw [taken_append]
    obtain ⟨over_, all⟩ := d.done handled
    refine ⟨over_, fun open_ => whole ?_⟩
    rw [all open_]
    exact Nat.le_add_right _ _
  · rw [number', number]
    exact reached_of_le (Nat.le_add_right _ _) (by omega)

theorem append (d : Drawing stream ended fins x) (alive : x.nextLayer = true) {q : UdtPacket}
    (genuine : q.Genuine stream ended) (next : q.hdr.seq = x.rcvNxt) :
    Drawing stream ended fins { x with
        rcvNxt := x.rcvNxt + BitVec.ofNat 32 q.hdr.len.toNat, pkts := x.pkts ++ [q] } ∧
      Advances x.rcvNxt (x.rcvNxt + BitVec.ofNat 32 q.hdr.len.toNat) := by
  have short := d.short
  have length := d.taken.length_le
  have here := genuine.here
  rw [next] at here
  rw [← genuine.sound.data_length]
  -- nothing is numbered before the SYN or behind the end of the stream
  have nothing : q.data = [] → (hasFin q.hdr.flags = true → ended ∧ x.taken = stream ∧ x.rcvNxt ≠ 0) →
      Drawing stream ended fins { x with
          rcvNxt := x.rcvNxt + BitVec.ofNat 32 q.data.length, pkts := x.pkts ++ [q] } ∧
        Advances x.rcvNxt (x.rcvNxt + BitVec.ofNat 32 q.data.length) := by
    intro none fin
    have still : x.rcvNxt + BitVec.ofNat 32 q.data.length = x.rcvNxt := by
      rw [none]
      exact BitVec.add_zero _
    rw [still]
    exact ⟨d.append_nothing genuine.sound none fin, Advances.refl _⟩
  rcases d.count alive with ⟨zero, none⟩ | ⟨k, few, number, finished⟩
  · have empty : q.data = [] := by
      by_contra some_
      rw [zero] at here
      have inside := (here.position (by omega) some_).1
      have wrapped : ((0 : Word) - 1).toNat = 2 ^ 32 - 1 := rfl
      omega
    refine nothing empty fun fin => ?_
    have len : q.hdr.len.toNat = 0 := by
      rw [← genuine.sound.data_length, empty]
      rfl
    have stop := (genuine.fin fin).2
    rw [UdtPacket.endSeq, next, zero] at stop
    have contra := congrArg BitVec.toNat stop
    rw [BitVec.toNat_add, BitVec.toNat_add, BitVec.toNat_setWidth, len, BitVec.toNat_ofNat] at contra
    change 0 = (1 + stream.length % 2 ^ 32) % 2 ^ 32 at contra
    omega
  · by_cases counted : k = 0
    · rw [counted] at number
      exact d.append_next genuine next number
    · obtain ⟨over_, all⟩ := finished counted
      have empty : q.data = [] := by
        by_contra some_
        rw [number] at here
        have inside := (here.position (by omega) some_).1
        rw [Excerpt.position_toNat _ (by omega), all] at inside
        omega
      refine nothing empty fun _ => ⟨over_, all, ?_⟩
      rw [number]
      exact (reached_of_le (Nat.le_refl _) (by omega)).1

theorem takes (d : Drawing stream ended fins x) (alive : x.nextLayer = true) {run : List UdtPacket}
    (genuine : ∀ q ∈ run, q.Genuine stream ended) (follow : Contiguous x.rcvNxt run) :
    Drawing stream ended fins { x with
        rcvNxt := x.rcvNxt + BitVec.ofNat 32 (totalLen run), pkts := x.pkts ++ run } ∧
      Advances x.rcvNxt (x.rcvNxt + BitVec.ofNat 32 (totalLen run)) := by
  induction run generalizing x with
  | nil =>
      rw [totalLen_nil, BitVec.add_zero, List.append_nil]
      exact ⟨d, Advances.refl _⟩
  | cons q run ih =>
      obtain ⟨here, later⟩ := List.forall_mem_cons.mp genuine
      obtain ⟨next, rest⟩ := follow
      have len : q.hdr.len.setWidth 32 = BitVec.ofNat 32 q.hdr.len.toNat := by bv_omega
      rw [len, ← next] at rest
      obtain ⟨first, before⟩ := d.append alive here next
      rw [next] at rest
      obtain ⟨second, after⟩ := ih first alive later rest
      rw [totalLen_cons, BitVec.ofNat_add, ← BitVec.add_assoc]
      refine ⟨?_, before.trans after⟩
      rw [List.append_assoc, List.singleton_append] at second
      exact second

/-- The peer's FIN is the last packet, and is counted, once more where the state does not tell. -/
theorem finned (d : Drawing stream ended fins x) (alive : x.nextLayer = true)
    (more : stream.length + (fins + 1) < 2 ^ 31) {q : UdtPacket} (member : q ∈ x.pkts)
    (fin : hasFin q.hdr.flags = true) (had : Bool) :
    Drawing stream ended (fins + 1) { x with
        rcvNxt := if had then x.rcvNxt else x.rcvNxt + 1, finHandled := true } ∧
      Advances x.rcvNxt (if had then x.rcvNxt else x.rcvNxt + 1) := by
  obtain ⟨over_, all, some_⟩ := d.fin q member fin
  rcases d.count alive with ⟨zero, _⟩ | ⟨k, few, number, finished⟩
  · contradiction
  have length := congrArg List.length all
  have counted : x.rcvNxt + 1 = 1 + BitVec.ofNat 32 (x.taken.length + (k + 1)) := by
    rw [number, ← Nat.add_assoc, BitVec.ofNat_add (x.taken.length + k), BitVec.add_assoc]
    rfl
  have after : Advances x.rcvNxt (if had then x.rcvNxt else x.rcvNxt + 1) := by
    cases had with
    | true => exact Advances.refl _
    | false =>
        intro _
        change Reached x.rcvNxt (x.rcvNxt + 1)
        rw [counted, number]
        exact reached_of_le (by omega) (by omega)
  refine ⟨⟨more, d.taken, fun _ => .inr ?_, d.sound, fun p inside fin => ?_, fun _ => ⟨over_, fun _ => all⟩,
    d.waiting⟩, after⟩
  · cases had with
    | true => exact ⟨k, by omega, number, finished⟩
    | false => exact ⟨k + 1, by omega, counted, fun _ => ⟨over_, all⟩⟩
  · exact ⟨over_, all, (after some_).2.1⟩

theorem reached_taken (d : Drawing stream ended fins x) (alive : x.nextLayer = true) {a : Word}
    (reached : Reached a x.rcvNxt) : stream.take (a - 1).toNat <+: x.taken := by
  obtain ⟨_, some_, within⟩ := reached
  have short := d.short
  have length := d.taken.length_le
  rcases d.count alive with ⟨zero, _⟩ | ⟨k, few, number, finished⟩
  · exact absurd zero some_
  by_cases counted : k = 0
  · rw [number, counted, Nat.add_zero, Excerpt.position_toNat _ (by omega)] at within
    refine List.prefix_of_prefix_length_le (List.take_prefix _ _) d.taken ?_
    exact (List.length_take_le _ _).trans within
  · rw [(finished counted).2]
    exact List.take_prefix _ _

/-- What is numbered below `m_rcv_nxt` was taken, and only a FIN is numbered behind that. -/
theorem below_taken (d : Drawing stream ended fins x) (alive : x.nextLayer = true) {m : Nat}
    (low : m < x.rcvNxt.toNat) : m ≤ x.taken.length ∨ ended ∧ x.taken = stream := by
  rcases d.count alive with ⟨zero, _⟩ | ⟨k, few, number, finished⟩
  · rw [zero] at low
    exact absurd low (Nat.not_lt_zero m)
  by_cases none : k = 0
  · left
    rw [number, none, Nat.add_zero, BitVec.toNat_add, BitVec.toNat_ofNat] at low
    change m < (1 + x.taken.length % 2 ^ 32) % 2 ^ 32 at low
    have whole := Nat.mod_le (1 + x.taken.length % 2 ^ 32) (2 ^ 32)
    have part := Nat.mod_le x.taken.length (2 ^ 32)
    omega
  · exact .inr (finished none)

theorem longer (d : Drawing stream ended fins x) {more : List UChar} {ended' : Prop} {fins' : Nat}
    (grown : stream <+: more) (still : ended → ended' ∧ more = stream) (later : fins ≤ fins')
    (short : more.length + fins' < 2 ^ 31) : Drawing more ended' fins' x where
  short := short
  taken := d.taken.trans grown
  count alive := by
    rcases d.count alive with before | ⟨k, few, number, finished⟩
    · exact .inl before
    · refine .inr ⟨k, few.trans later, number, fun counted => ?_⟩
      obtain ⟨over_, all⟩ := finished counted
      exact ⟨(still over_).1, all.trans (still over_).2.symm⟩
  sound := d.sound
  fin q member fin := by
    obtain ⟨over_, all, some_⟩ := d.fin q member fin
    exact ⟨(still over_).1, all.trans (still over_).2.symm, some_⟩
  done handled := by
    obtain ⟨over_, all⟩ := d.done handled
    exact ⟨(still over_).1, fun open_ => (all open_).trans (still over_).2.symm⟩
  waiting q member := by
    obtain ⟨sound, here, fin⟩ := d.waiting q member
    refine ⟨sound, here.mono grown, fun flag => ?_⟩
    obtain ⟨over_, stop⟩ := fin flag
    exact ⟨(still over_).1, by rw [(still over_).2]; exact stop⟩

end Drawing

namespace UdtPacket

variable {p q : UdtPacket} {mem : List UChar}

/-- What `q` has behind the options of `p` is what `p` had there. -/
structure Alike (p q : UdtPacket) : Prop where
  off : p.hdr.off.toNat ≤ q.hdr.off.toNat
  length : q.mem.length = p.mem.length
  behind : q.mem.drop (p.hdr.off.toNat - UdtHdr.size) = p.mem.drop (p.hdr.off.toNat - UdtHdr.size)

/-- The memory of `p` after a walk over its options. -/
structure Walked (p : UdtPacket) (mem : List UChar) : Prop where
  length : mem.length = p.mem.length
  behind : mem.drop (p.hdr.off.toNat - UdtHdr.size) = p.mem.drop (p.hdr.off.toNat - UdtHdr.size)

theorem Walked.data (walked : p.Walked mem) (alike : p.Alike q) (sound : q.Sound) :
    UdtPacket.data { q with mem } = q.data ∧ UdtPacket.Sound { q with mem } := by
  obtain ⟨off, length, behind⟩ := alike
  have sound' : UdtPacket.Sound { q with mem } :=
    ⟨sound.off, by rw [walked.length, ← length]; exact sound.inside, sound.small⟩
  have far : q.hdr.off.toNat - UdtHdr.size =
      (p.hdr.off.toNat - UdtHdr.size) + (q.hdr.off.toNat - p.hdr.off.toNat) ∨
      p.hdr.off.toNat < UdtHdr.size := by
    have start := sound.off
    omega
  refine ⟨?_, sound'⟩
  rw [data_of_le sound'.off, data_of_le sound.off]
  dsimp only
  rcases far with far | low
  · rw [far, ← List.drop_drop, ← List.drop_drop, walked.behind, behind]
  · have none : p.hdr.off.toNat - UdtHdr.size = 0 := by omega
    have same := walked.behind.trans behind.symm
    rw [none, List.drop_zero, List.drop_zero] at same
    rw [same]

theorem Alike.after {k : Nat} (alike : p.Alike q) (sound : q.Sound) (within : k ≤ q.hdr.len.toNat) :
    p.Alike (q.after k) where
  off := by
    rw [sound.after_off within]
    exact alike.off.trans (Nat.le_add_right _ _)
  length := alike.length
  behind := alike.behind

end UdtPacket

/-- The only packet in the buffer of `p` is `p`. -/
def Incoming.Holds (x : Incoming) (p : UdtPacket) : Prop :=
  ∀ q ∈ x.pkts ++ x.waiting, q.buffer = p.buffer → p.Alike q

namespace Drawing

variable {stream : List UChar} {ended : Prop} {fins : Nat} {x : Incoming} {p : UdtPacket}
  {mem : List UChar}

/-- What `rewrite_pkt` makes of a queue. -/
def rewritten (buffer : Nat) (mem : List UChar) (ps : List UdtPacket) : List UdtPacket :=
  ps.map fun q => if q.buffer = buffer then { q with mem } else q

theorem rewritten_spec (walked : p.Walked mem) {ps : List UdtPacket} {q : UdtPacket}
    (holds : ∀ r ∈ ps, r.buffer = p.buffer → p.Alike r) (sound : ∀ r ∈ ps, r.Sound)
    (member : q ∈ rewritten p.buffer mem ps) :
    ∃ r ∈ ps, q.hdr = r.hdr ∧ q.buffer = r.buffer ∧ q.data = r.data ∧ q.Sound ∧
      (q.buffer = p.buffer → p.Alike q) := by
  obtain ⟨r, before, rfl⟩ := List.mem_map.mp member
  by_cases same : r.buffer = p.buffer
  · have alike := holds r before same
    obtain ⟨data, whole⟩ := walked.data alike (sound r before)
    rw [if_pos same]
    exact ⟨r, before, rfl, rfl, data, whole, fun _ => ⟨alike.off, walked.length, walked.behind⟩⟩
  · rw [if_neg same]
    exact ⟨r, before, rfl, rfl, rfl, sound r before, fun contra => absurd contra same⟩

theorem rewritten_payload (walked : p.Walked mem) {ps : List UdtPacket}
    (holds : ∀ q ∈ ps, q.buffer = p.buffer → p.Alike q) (sound : ∀ q ∈ ps, q.Sound) :
    payload (rewritten p.buffer mem ps) = payload ps := by
  rw [payload, payload, rewritten, List.flatMap_map]
  refine List.flatMap_congr fun q member => ?_
  split
  · next same => exact (walked.data (holds q member same) (sound q member)).1
  · rfl

theorem rewrite (d : Drawing stream ended fins x) (walked : p.Walked mem) (holds : x.Holds p) :
    Drawing stream ended fins { x with
        pkts := rewritten p.buffer mem x.pkts, waiting := rewritten p.buffer mem x.waiting } ∧
      Incoming.Holds { x with
        pkts := rewritten p.buffer mem x.pkts, waiting := rewritten p.buffer mem x.waiting } p := by
  obtain ⟨here, there⟩ := List.forall_mem_append.mp holds
  have waits : ∀ q ∈ x.waiting, q.Sound := fun q member => (d.waiting q member).sound
  have same : Incoming.taken { x with
      pkts := rewritten p.buffer mem x.pkts, waiting := rewritten p.buffer mem x.waiting } = x.taken := by
    change x.given ++ payload (rewritten p.buffer mem x.pkts) = x.given ++ payload x.pkts
    rw [rewritten_payload walked here d.sound]
  refine ⟨⟨d.short, same ▸ d.taken, fun alive => same ▸ d.count alive, fun q member => ?_,
    fun q member fin => ?_, fun handled => same ▸ d.done handled, fun q member => ?_⟩,
    List.forall_mem_append.mpr ⟨fun q member => ?_, fun q member => ?_⟩⟩
  · obtain ⟨_, _, _, _, _, sound, _⟩ := rewritten_spec walked here d.sound member
    exact sound
  · obtain ⟨r, before, hdr, _⟩ := rewritten_spec walked here d.sound member
    rw [hdr] at fin
    rw [same]
    exact d.fin r before fin
  · obtain ⟨r, before, hdr, _, data, sound, _⟩ := rewritten_spec walked there waits member
    have genuine := d.waiting r before
    refine ⟨sound, ?_, ?_⟩
    · rw [hdr, data]
      exact genuine.here
    · rw [UdtPacket.endSeq, hdr]
      exact genuine.fin
  · obtain ⟨_, _, _, _, _, _, alike⟩ := rewritten_spec walked here d.sound member
    exact alike
  · obtain ⟨_, _, _, _, _, _, alike⟩ := rewritten_spec walked there waits member
    exact alike

end Drawing

/-- What a packet's steps need to keep the incoming stream in order. -/
def Draws (p : UdtPacket) (stream : List UChar) (ended : Prop) (v : View) : Act → Prop
  | .syn q => v.nextLayer = true ∧ q.hdr.seq = 0 ∧ (v.rcvNxt - 1).toInt ≤ 0
  | .store q => v.nextLayer = true ∧ q.Genuine stream ended ∧ p.Alike q
  | .rewrite q mem => q.buffer = p.buffer ∧ p.Walked mem
  | .fin => False
  | _ => True

theorem received_append (posted : List Completion) (c : List Completion)
    (silent : ∀ x ∈ c, x.receivedBytes = []) :
    (posted ++ c).flatMap Completion.receivedBytes = posted.flatMap Completion.receivedBytes := by
  rw [List.flatMap_append, List.flatMap_eq_nil_iff.mpr silent, List.append_nil]

theorem receivedBytes_silent {c : Completion} (silent : c.isReceived = false) :
    c.receivedBytes = [] := by
  cases c with
  | received => contradiction
  | _ => rfl

theorem Step.drawing {stream : List UChar} {ended : Prop} {fins : Nat} {p : UdtPacket} {v w : View}
    {a : Act} (step : Step v a w) (legal : Draws p stream ended v a)
    (d : Drawing stream ended fins v.incoming) (holds : v.incoming.Holds p) :
    Drawing stream ended fins w.incoming ∧ w.incoming.Holds p ∧ Advances v.rcvNxt w.rcvNxt := by
  have still : w.incoming = v.incoming → Drawing stream ended fins w.incoming ∧
      w.incoming.Holds p ∧ Advances v.rcvNxt w.rcvNxt := by
    intro same
    have nxt : w.rcvNxt = v.rcvNxt := congrArg Incoming.rcvNxt same
    rw [same, nxt]
    exact ⟨d, holds, Advances.refl _⟩
  have silent : ∀ {c : List Completion}, (∀ x ∈ c, x.receivedBytes = []) →
      w.incoming = { v.incoming with given := (v.posted ++ c).flatMap Completion.receivedBytes } →
        Drawing stream ended fins w.incoming ∧ w.incoming.Holds p ∧ Advances v.rcvNxt w.rcvNxt := by
    intro c none same
    rw [received_append v.posted c none] at same
    exact still same
  have reads : ∀ {n : Nat} {bytes : List UChar},
      bytes = (v.rcvBuf.toUdtBuf.copy n true).1 →
        Drawing stream ended fins { v.incoming with
          pkts := (v.rcvBuf.toUdtBuf.copy n true).2.pkts, given := v.incoming.given ++ bytes } ∧
        Incoming.Holds { v.incoming with
          pkts := (v.rcvBuf.toUdtBuf.copy n true).2.pkts, given := v.incoming.given ++ bytes } p := by
    rintro n bytes rfl
    have leaves := UdtBuf.copy_reads d.sound n
    obtain ⟨here, there⟩ := List.forall_mem_append.mp holds
    refine ⟨d.read leaves, List.forall_mem_append.mpr ⟨fun q member same => ?_, there⟩⟩
    obtain ⟨r, before, k, within, rfl⟩ := leaves.origin member
    exact (here r before same).after (d.sound r before) within
  cases step with
  | transmit _ _ sends =>
      apply still
      rw [sends.moved]
      rfl
  | ackAll _ quiet =>
      exact silent (fun x member => receivedBytes_silent (quiet x member).2) rfl
  | consume =>
      refine silent (c := _) (fun x member => ?_) rfl
      obtain ⟨_, _, rfl⟩ := List.mem_map.mp member
      rfl
  | @syn q state =>
      obtain ⟨alive, first, inside⟩ := legal
      obtain ⟨greeted, advances⟩ := d.greeted alive inside
      have one : q.hdr.seq + 1 = 1 := by rw [first]; rfl
      refine ⟨?_, holds, ?_⟩
      · change Drawing stream ended fins { v.incoming with rcvNxt := q.hdr.seq + 1 }
        rw [one]
        exact greeted
      · change Advances _ (q.hdr.seq + 1)
        rw [one]
        exact advances
  | @store q below above run kept queue _ _ split follow _ _ =>
      obtain ⟨alive, genuine, alike⟩ := legal
      have before : ∀ r ∈ below ++ q :: above, r.Genuine stream ended := by
        intro r member
        rcases List.mem_append.mp member with low | high
        · exact d.waiting r (by rw [View.incoming, queue]; exact List.mem_append_left _ low)
        · rcases List.mem_cons.mp high with rfl | high
          · exact genuine
          · exact d.waiting r (by rw [View.incoming, queue]; exact List.mem_append_right _ high)
      rw [split] at before
      obtain ⟨goes, stays⟩ := List.forall_mem_append.mp before
      obtain ⟨taken, advances⟩ := d.takes alive goes follow
      refine ⟨{ taken with waiting := stays }, fun r member same => ?_, advances⟩
      have inside : r ∈ v.rcvBuf.pkts ++ (run ++ kept) := by
        rw [← List.append_assoc]
        exact member
      rw [← split] at inside
      rcases List.mem_append.mp inside with old | new
      · exact holds r (List.mem_append_left _ old) same
      · rcases List.mem_append.mp new with low | high
        · refine holds r (List.mem_append_right _ ?_) same
          rw [View.incoming, queue]
          exact List.mem_append_left _ low
        · rcases List.mem_cons.mp high with rfl | high
          · exact alike
          · refine holds r (List.mem_append_right _ ?_) same
            rw [View.incoming, queue]
            exact List.mem_append_right _ high
  | @rewrite q mem =>
      obtain ⟨same, walked⟩ := legal
      obtain ⟨drawn, held⟩ := d.rewrite walked holds
      rw [← same] at drawn held
      exact ⟨drawn, held, Advances.refl _⟩
  | fin => exact absurd legal not_false
  | @dispatch op =>
      obtain ⟨drawn, held⟩ := reads (n := op.buf.size.toNat) rfl
      have given : (v.posted ++ [Completion.received op v.lastError
          (v.rcvBuf.toUdtBuf.copy op.buf.size.toNat true).1]).flatMap Completion.receivedBytes =
          v.incoming.given ++ (v.rcvBuf.toUdtBuf.copy op.buf.size.toNat true).1 := by
        rw [List.flatMap_append, List.flatMap_singleton]
        rfl
      rw [← given] at drawn held
      exact ⟨drawn, held, Advances.refl _⟩
  | @discard n none =>
      obtain ⟨drawn, held⟩ := reads (n := n) none.symm
      rw [List.append_nil] at drawn held
      exact ⟨drawn, held, Advances.refl _⟩
  | refuseReceive => exact silent (c := [_]) (by simp [Completion.receivedBytes]) rfl
  | post quiet => exact silent (c := [_]) (by simpa using receivedBytes_silent quiet.2) rfl
  | close =>
      refine ⟨d.closed, fun q member => ?_, Advances.refl _⟩
      change q ∈ ([] : List UdtPacket) ++ [] at member
      contradiction
  | _ => exact still rfl

end UdtBoost
