import UdtBoost.Effects

/-! The walk over a datagram's options, with the bytes it touches. It stays inside the option area,
makes progress and meets only options it knows exactly when the area is a sequence of those. -/
namespace UdtBoost

open UdtOption

theorem store32_length (mem : List UChar) (i : Nat) (x : Word) :
    (store32 mem i x).length = mem.length := by
  simp [store32]

theorem store32_drop (mem : List UChar) {i k : Nat} (x : Word) (below : i + 4 ≤ k) :
    (store32 mem i x).drop k = mem.drop k := by
  unfold store32
  rw [List.drop_set_of_lt (by omega), List.drop_set_of_lt (by omega),
    List.drop_set_of_lt (by omega), List.drop_set_of_lt (by omega)]

namespace UdtOptionSack

theorem ntoh_length (mem : List UChar) (ptr n : Nat) :
    (ntoh mem ptr n).length = mem.length := by
  induction n with
  | zero => rfl
  | succ n ih => rw [ntoh, store32_length, store32_length, ih]

theorem ntoh_drop (mem : List UChar) (ptr : Nat) {n k : Nat}
    (below : ptr + sizeofOption + sizeofPair * n ≤ k) :
    (ntoh mem ptr n).drop k = mem.drop k := by
  induction n with
  | zero => rfl
  | succ n ih =>
      have below : ptr + 2 + 8 * (n + 1) ≤ k := below
      have first : ptr + sizeofOption + sizeofPair * n + 4 ≤ k := by
        change ptr + 2 + 8 * n + 4 ≤ k
        omega
      have second : ptr + sizeofOption + sizeofPair * n + 4 + 4 ≤ k := by
        change ptr + 2 + 8 * n + 4 + 4 ≤ k
        omega
      rw [ntoh, store32_drop _ _ second, store32_drop _ _ first,
        ih ((Nat.le_add_right _ 4).trans first)]

theorem size_long {len : UChar} (long : sizeofOption ≤ len.toNat) :
    size len = (len.toNat - sizeofOption) / sizeofPair := by
  have bound := len.isLt
  have long : 2 ≤ len.toNat := long
  rw [size, BitVec.toNat_udiv, BitVec.toNat_sub, BitVec.toNat_setWidth]
  change (2 ^ 32 - 2 + len.toNat % 2 ^ 32) % 2 ^ 32 / 8 = (len.toNat - 2) / 8
  omega

theorem size_short {len : UChar} (short : len.toNat < sizeofOption) :
    size len = 536870911 := by
  have short : len.toNat < 2 := short
  rw [size, BitVec.toNat_udiv, BitVec.toNat_sub, BitVec.toNat_setWidth]
  change (2 ^ 32 - 2 + len.toNat % 2 ^ 32) % 2 ^ 32 / 8 = 536870911
  omega

end UdtOptionSack

/-- The option areas the walk is made for. -/
inductive OptionArea : List UChar → Prop
  | short {bytes : List UChar} (few : bytes.length < sizeofOption) : OptionArea bytes
  | eol (len : UChar) (rest : List UChar) : OptionArea (TCPOPT_EOL :: len :: rest)
  | nop {rest : List UChar} (len : UChar) (more : OptionArea rest) :
      OptionArea (TCPOPT_NOP :: len :: rest)
  | cwnd {cwnd rest : List UChar} (len : UChar) (whole : cwnd.length = 4) (more : OptionArea rest) :
      OptionArea (TCPOPT_CWND :: len :: (cwnd ++ rest))
  | sack {pairs rest : List UChar} {len : UChar} (long : sizeofOption ≤ len.toNat)
      (whole : pairs.length = sizeofPair * ((len.toNat - sizeofOption) / sizeofPair))
      (more : OptionArea rest) : OptionArea (TCPOPT_SACK :: len :: (pairs ++ rest))

/-- A SACK that ends before its blocks begin leads nowhere. -/
theorem OptionArea.sack_long {len : UChar} {rest : List UChar}
    (options : OptionArea (TCPOPT_SACK :: len :: rest)) : sizeofOption ≤ len.toNat := by
  generalize starts : TCPOPT_SACK :: len :: rest = area at options
  cases options with
  | short few =>
      rw [← starts] at few
      exact absurd few (by simp [sizeofOption])
  | eol | nop | cwnd => exact absurd (List.cons.inj starts).1 (by decide)
  | sack long =>
      obtain ⟨rfl, _⟩ := List.cons.inj (List.cons.inj starts).2
      exact long

/-- `handle_options` at the head of its loop. -/
structure OptionWalk where
  endpoint : Endpoint
  mem : List UChar
  /-- `ptr`, counted from the start of the option area. -/
  ptr : Word
  /-- `remain_len_i`. -/
  remainLen : Word

namespace OptionWalk

def kind (w : OptionWalk) : UChar := w.mem.getD w.ptr.toNat 0

def len (w : OptionWalk) : UChar := w.mem.getD (w.ptr.toNat + 1) 0

/-- `size()` of the option when it is a SACK. -/
def size (w : OptionWalk) : Nat := UdtOptionSack.size w.len

/-- What one iteration reads and writes: offsets into the area, with numbers of bytes. -/
def touched (w : OptionWalk) : List (Nat × Nat) :=
  (w.ptr.toNat, 1) ::
    if w.kind = TCPOPT_SACK then
      [(w.ptr.toNat + 1, 1), (w.ptr.toNat + sizeofOption, sizeofPair * w.size)]
    else if w.kind = TCPOPT_CWND then [(w.ptr.toNat + sizeofOption, 4)]
    else []

/-- One iteration that goes on: the other branches return, from `TCPOPT_EOL` or the assertion. -/
def next (w : OptionWalk) : Option OptionWalk :=
  if w.kind = TCPOPT_SACK then
    let mem := UdtOptionSack.ntoh w.mem w.ptr.toNat w.size
    let pairs := (List.range w.size).map (UdtOptionSack.pairSeq mem w.ptr.toNat)
    let consumed := BitVec.ofNat 32 (sizeofOption + sizeofPair * w.size)
    some ⟨w.endpoint.handleOptionSack pairs, mem, w.ptr + consumed, w.remainLen - consumed⟩
  else if w.kind = TCPOPT_CWND then
    let cwnd := ntohl (load32 w.mem (w.ptr.toNat + sizeofOption))
    let consumed := BitVec.ofNat 32 sizeofCwnd
    some ⟨w.endpoint.handleOptionCwnd cwnd, store32 w.mem (w.ptr.toNat + sizeofOption) cwnd,
      w.ptr + consumed, w.remainLen - consumed⟩
  else if w.kind = TCPOPT_NOP then
    let consumed := BitVec.ofNat 32 sizeofOption
    some ⟨w.endpoint, w.mem, w.ptr + consumed, w.remainLen - consumed⟩
  else none

def Inside (area : Nat) (w : OptionWalk) : Prop := ∀ r ∈ w.touched, r.1 + r.2 ≤ area

/-- The walk from `w` ends in `y`; every iteration stays inside the area, takes something from
what remains, and none reaches the assertion. -/
inductive Safe (area : Nat) : OptionWalk → OptionWalk → Prop
  | finished {w : OptionWalk} (few : w.remainLen.toInt < sizeofOption) : Safe area w w
  | ended {w : OptionWalk} (more : (sizeofOption : Int) ≤ w.remainLen.toInt)
      (inside : w.Inside area) (eol : w.kind = TCPOPT_EOL) : Safe area w w
  | option {w x y : OptionWalk} (more : (sizeofOption : Int) ≤ w.remainLen.toInt)
      (inside : w.Inside area) (step : w.next = some x)
      (less : x.remainLen.toInt < w.remainLen.toInt) (rest : Safe area x y) : Safe area w y

/-- The area from `ptr` on, inside the memory of the packet. -/
structure Placed (area : Nat) (w : OptionWalk) : Prop where
  sum : w.ptr.toNat + w.remainLen.toNat = area
  fits : area ≤ w.mem.length
  small : area < 65536

/-- What remains of the area. -/
def bytes (w : OptionWalk) : List UChar := (w.mem.drop w.ptr.toNat).take w.remainLen.toNat

variable {area : Nat} {w x y : OptionWalk}

theorem Placed.length (placed : w.Placed area) : w.bytes.length = w.remainLen.toNat := by
  obtain ⟨sum, fits, _⟩ := placed
  rw [bytes, List.length_take, List.length_drop]
  omega

theorem Placed.toInt (placed : w.Placed area) : w.remainLen.toInt = w.remainLen.toNat := by
  obtain ⟨sum, _, small⟩ := placed
  rw [BitVec.toInt_eq_toNat_of_lt (by omega)]

/-- What an option leaves behind: memory is changed only in the option itself. -/
structure Consumes (w x : OptionWalk) (k : Nat) : Prop where
  ptr : x.ptr.toNat = w.ptr.toNat + k
  remainLen : x.remainLen.toNat = w.remainLen.toNat - k
  length : x.mem.length = w.mem.length
  rest : x.mem.drop (w.ptr.toNat + k) = w.mem.drop (w.ptr.toNat + k)

theorem Placed.next {k : Nat} (placed : w.Placed area) (consumes : w.Consumes x k)
    (enough : k ≤ w.remainLen.toNat) : x.Placed area := by
  obtain ⟨sum, fits, small⟩ := placed
  obtain ⟨ptr, remainLen, length, _⟩ := consumes
  exact ⟨by omega, by omega, small⟩

theorem Placed.head (placed : w.Placed area) (more : sizeofOption ≤ w.remainLen.toNat) :
    (w.mem.drop w.ptr.toNat).take sizeofOption = [w.kind, w.len] := by
  obtain ⟨sum, fits, _⟩ := placed
  have more : 2 ≤ w.remainLen.toNat := more
  have first : w.ptr.toNat < w.mem.length := by omega
  have second : w.ptr.toNat + 1 < w.mem.length := by omega
  rw [List.drop_eq_getElem_cons first, List.drop_eq_getElem_cons second, kind, len,
    List.getD_eq_getElem _ _ first, List.getD_eq_getElem _ _ second]
  rfl

theorem Placed.bytes_split {k : Nat} (placed : w.Placed area) (consumes : w.Consumes x k)
    (some_ : sizeofOption ≤ k) (enough : k ≤ w.remainLen.toNat) :
    w.bytes = w.kind :: w.len ::
      ((w.mem.drop (w.ptr.toNat + sizeofOption)).take (k - sizeofOption) ++ x.bytes) := by
  have head := placed.head (some_.trans enough)
  have sizes : w.remainLen.toNat = sizeofOption + ((k - sizeofOption) + (w.remainLen.toNat - k)) := by
    omega
  have far : w.ptr.toNat + sizeofOption + (k - sizeofOption) = w.ptr.toNat + k := by omega
  rw [bytes, sizes, List.take_add, head, List.drop_drop, List.take_add, List.drop_drop, far,
    ← consumes.rest, bytes, consumes.ptr, consumes.remainLen]
  rfl

/-- An option of `k` bytes inside the area leaves the rest of it to be walked. -/
theorem Placed.consumes {k : Nat} (placed : w.Placed area) (enough : k ≤ w.remainLen.toNat)
    (ptr : x.ptr = w.ptr + BitVec.ofNat 32 k) (remainLen : x.remainLen = w.remainLen - BitVec.ofNat 32 k)
    (length : x.mem.length = w.mem.length)
    (rest : x.mem.drop (w.ptr.toNat + k) = w.mem.drop (w.ptr.toNat + k)) : w.Consumes x k := by
  obtain ⟨sum, _, small⟩ := placed
  refine ⟨?_, ?_, length, rest⟩
  · rw [ptr, BitVec.toNat_add, BitVec.toNat_ofNat]
    omega
  · rw [remainLen, BitVec.toNat_sub, BitVec.toNat_ofNat]
    omega

/-- The bytes of the option, as far as the walk believes them. -/
def width (w : OptionWalk) : Nat :=
  if w.kind = TCPOPT_SACK then sizeofOption + sizeofPair * w.size
  else if w.kind = TCPOPT_CWND then sizeofCwnd
  else sizeofOption

theorem sizeofOption_le_width (w : OptionWalk) : sizeofOption ≤ w.width := by
  unfold width
  split
  · exact Nat.le_add_right _ _
  · split <;> decide

theorem Placed.next_consumes (placed : w.Placed area) (step : w.next = some x)
    (enough : w.width ≤ w.remainLen.toNat) : w.Consumes x w.width := by
  unfold OptionWalk.next at step
  unfold width at enough ⊢
  by_cases sack : w.kind = TCPOPT_SACK
  · rw [if_pos sack] at step enough ⊢
    obtain rfl := Option.some.inj step
    refine placed.consumes enough rfl rfl (UdtOptionSack.ntoh_length _ _ _) (UdtOptionSack.ntoh_drop _ _ ?_)
    rw [Nat.add_assoc]
  rw [if_neg sack] at step enough ⊢
  by_cases cwnd : w.kind = TCPOPT_CWND
  · rw [if_pos cwnd] at step enough ⊢
    obtain rfl := Option.some.inj step
    exact placed.consumes enough rfl rfl (store32_length _ _ _) (store32_drop _ _ (Nat.le_refl _))
  rw [if_neg cwnd] at step enough ⊢
  by_cases nop : w.kind = TCPOPT_NOP
  · rw [if_pos nop] at step
    obtain rfl := Option.some.inj step
    exact placed.consumes enough rfl rfl rfl rfl
  · rw [if_neg nop] at step
    contradiction

theorem Placed.inside_iff (placed : w.Placed area) (more : sizeofOption ≤ w.remainLen.toNat) :
    w.Inside area ↔ w.width ≤ w.remainLen.toNat := by
  obtain ⟨sum, _, _⟩ := placed
  have more : 2 ≤ w.remainLen.toNat := more
  unfold Inside touched width
  by_cases sack : w.kind = TCPOPT_SACK
  · rw [if_pos sack, if_pos sack, List.forall_mem_cons, List.forall_mem_cons,
      List.forall_mem_singleton]
    change (w.ptr.toNat + 1 ≤ area ∧ w.ptr.toNat + 1 + 1 ≤ area ∧
      w.ptr.toNat + 2 + 8 * w.size ≤ area) ↔ 2 + 8 * w.size ≤ w.remainLen.toNat
    omega
  rw [if_neg sack, if_neg sack]
  by_cases cwnd : w.kind = TCPOPT_CWND
  · rw [if_pos cwnd, if_pos cwnd, List.forall_mem_cons, List.forall_mem_singleton]
    change (w.ptr.toNat + 1 ≤ area ∧ w.ptr.toNat + 2 + 4 ≤ area) ↔ 6 ≤ w.remainLen.toNat
    omega
  · rw [if_neg cwnd, if_neg cwnd, List.forall_mem_singleton]
    change w.ptr.toNat + 1 ≤ area ↔ 2 ≤ w.remainLen.toNat
    omega

/-- The kinds that neither end the walk nor meet the assertion. -/
theorem exists_next_iff :
    (∃ x, w.next = some x) ↔ w.kind = TCPOPT_SACK ∨ w.kind = TCPOPT_CWND ∨ w.kind = TCPOPT_NOP := by
  unfold next
  by_cases sack : w.kind = TCPOPT_SACK
  · rw [if_pos sack]
    exact ⟨fun _ => .inl sack, fun _ => ⟨_, rfl⟩⟩
  rw [if_neg sack]
  by_cases cwnd : w.kind = TCPOPT_CWND
  · rw [if_pos cwnd]
    exact ⟨fun _ => .inr (.inl cwnd), fun _ => ⟨_, rfl⟩⟩
  rw [if_neg cwnd]
  by_cases nop : w.kind = TCPOPT_NOP
  · rw [if_pos nop]
    exact ⟨fun _ => .inr (.inr nop), fun _ => ⟨_, rfl⟩⟩
  · rw [if_neg nop]
    constructor
    · rintro ⟨_, step⟩
      contradiction
    · rintro (kind | kind | kind) <;> contradiction

/-- The first option of an area the walk gets through. -/
theorem Placed.optionArea_cons (placed : w.Placed area) (enough : w.width ≤ w.remainLen.toNat)
    (step : w.next = some x) (rest : OptionArea x.bytes) : OptionArea w.bytes := by
  obtain ⟨sum, fits, small⟩ := id placed
  have split := placed.bytes_split (placed.next_consumes step enough) w.sizeofOption_le_width enough
  have payload : ((w.mem.drop (w.ptr.toNat + sizeofOption)).take
      (w.width - sizeofOption)).length = w.width - sizeofOption := by
    have two := w.sizeofOption_le_width
    rw [List.length_take, List.length_drop]
    omega
  generalize (w.mem.drop (w.ptr.toNat + sizeofOption)).take (w.width - sizeofOption) = option
    at split payload
  rw [split]
  unfold width at payload enough
  by_cases sack : w.kind = TCPOPT_SACK
  · rw [if_pos sack] at payload enough
    have long : sizeofOption ≤ w.len.toNat := by
      by_contra short
      rw [size, UdtOptionSack.size_short (Nat.lt_of_not_le short)] at enough
      change 2 + 8 * 536870911 ≤ w.remainLen.toNat at enough
      omega
    rw [sack]
    refine .sack long ?_ rest
    rw [payload, size, UdtOptionSack.size_long long, Nat.add_sub_cancel_left]
  rw [if_neg sack] at payload
  by_cases cwnd : w.kind = TCPOPT_CWND
  · rw [if_pos cwnd] at payload
    rw [cwnd]
    exact .cwnd _ payload rest
  rw [if_neg cwnd] at payload
  have nop : w.kind = TCPOPT_NOP :=
    ((exists_next_iff.mp ⟨x, step⟩).resolve_left sack).resolve_left cwnd
  rw [List.eq_nil_of_length_eq_zero payload, nop]
  exact .nop _ rest

theorem Safe.optionArea (safe : Safe area w y) : w.Placed area → OptionArea w.bytes := by
  induction safe with
  | finished few =>
      intro placed
      rw [placed.toInt] at few
      refine .short ?_
      rw [placed.length]
      omega
  | @ended w more _ eol =>
      intro placed
      rw [placed.toInt] at more
      have more : sizeofOption ≤ w.remainLen.toNat := by omega
      have split := List.take_append_drop sizeofOption w.bytes
      rw [bytes, List.take_take, min_eq_left more, placed.head more, eol] at split
      rw [bytes, ← split]
      exact .eol _ _
  | option more inside step _ _ ih =>
      intro placed
      rw [placed.toInt] at more
      have enough := (placed.inside_iff (by omega)).mp inside
      have after := placed.next (placed.next_consumes step enough) enough
      exact placed.optionArea_cons enough step (ih after)

theorem Placed.head_of_bytes {kind len : UChar} {rest : List UChar} (placed : w.Placed area)
    (starts : w.bytes = kind :: len :: rest) :
    sizeofOption ≤ w.remainLen.toNat ∧ w.kind = kind ∧ w.len = len := by
  have long := placed.length
  rw [starts, List.length_cons, List.length_cons] at long
  have more : sizeofOption ≤ w.remainLen.toNat := by
    change 2 ≤ w.remainLen.toNat
    omega
  have head := placed.head more
  have taken : w.bytes.take sizeofOption = [w.kind, w.len] := by
    rw [bytes, List.take_take, min_eq_left more, head]
  rw [starts] at taken
  obtain ⟨kinds, lens⟩ := List.cons.inj taken
  exact ⟨more, kinds.symm, (List.cons.inj lens).1.symm⟩

/-- What follows an option of known kind and length. -/
theorem Placed.split {option rest : List UChar} (placed : w.Placed area)
    (starts : w.bytes = w.kind :: w.len :: (option ++ rest))
    (whole : sizeofOption + option.length = w.width) (step : w.next = some x) :
    w.width ≤ w.remainLen.toNat ∧ x.Placed area ∧ x.bytes = rest := by
  obtain ⟨sum, fits, small⟩ := id placed
  have long := placed.length
  rw [starts, List.length_cons, List.length_cons, List.length_append] at long
  have enough : w.width ≤ w.remainLen.toNat := by
    rw [← whole]
    change 2 + option.length ≤ w.remainLen.toNat
    omega
  have consumes := placed.next_consumes step enough
  have split := placed.bytes_split consumes w.sizeofOption_le_width enough
  refine ⟨enough, placed.next consumes enough, ?_⟩
  rw [starts] at split
  have tails := (List.cons.inj (List.cons.inj split).2).2
  refine (List.append_inj tails ?_).2.symm
  rw [List.length_take, List.length_drop]
  omega

/-- The walk takes the option and goes on. -/
theorem Placed.option (placed : w.Placed area) (step : w.next = some x)
    (enough : w.width ≤ w.remainLen.toNat) (walk : Safe area x y) : Safe area w y := by
  have consumes := placed.next_consumes step enough
  have after := placed.next consumes enough
  have two := w.sizeofOption_le_width
  have more := two.trans enough
  have less : x.remainLen.toInt < w.remainLen.toInt := by
    have positive : 0 < sizeofOption := by decide
    rw [after.toInt, placed.toInt, consumes.remainLen]
    omega
  exact .option (by rw [placed.toInt]; omega) ((placed.inside_iff more).mpr enough) step less walk

theorem Placed.safe_cons {option rest : List UChar} (placed : w.Placed area)
    (starts : w.bytes = w.kind :: w.len :: (option ++ rest))
    (whole : sizeofOption + option.length = w.width) (step : w.next = some x)
    (safe : x.Placed area → x.bytes = rest → ∃ y, Safe area x y) : ∃ y, Safe area w y := by
  obtain ⟨enough, after, same⟩ := placed.split starts whole step
  obtain ⟨y, walk⟩ := safe after same
  exact ⟨y, placed.option step enough walk⟩

theorem Placed.safe {area : Nat} {known : List UChar} (options : OptionArea known) :
    ∀ {w : OptionWalk}, w.Placed area → w.bytes = known → ∃ y, Safe area w y := by
  induction options with
  | short few =>
      intro w placed same
      rw [← same, placed.length] at few
      exact ⟨w, .finished (by rw [placed.toInt]; omega)⟩
  | eol len rest =>
      intro w placed same
      obtain ⟨more, kind, _⟩ := placed.head_of_bytes same
      have width : w.width ≤ w.remainLen.toNat := by
        rw [width, kind]
        exact more
      exact ⟨w, .ended (by rw [placed.toInt]; omega) ((placed.inside_iff more).mpr width) kind⟩
  | @nop rest len _ ih =>
      intro w placed same
      obtain ⟨_, kind, lens⟩ := placed.head_of_bytes same
      obtain ⟨x, step⟩ := exists_next_iff.mpr (.inr (.inr kind))
      have starts : w.bytes = w.kind :: w.len :: ([] ++ rest) := by
        rw [same, kind, lens, List.nil_append]
      refine placed.safe_cons starts ?_ step ih
      rw [width, kind]
      rfl
  | @cwnd cwnd rest len whole _ ih =>
      intro w placed same
      obtain ⟨_, kind, lens⟩ := placed.head_of_bytes same
      obtain ⟨x, step⟩ := exists_next_iff.mpr (.inr (.inl kind))
      have starts : w.bytes = w.kind :: w.len :: (cwnd ++ rest) := by rw [same, kind, lens]
      refine placed.safe_cons starts ?_ step ih
      rw [width, kind, whole]
      rfl
  | @sack pairs rest len long whole _ ih =>
      intro w placed same
      obtain ⟨_, kind, lens⟩ := placed.head_of_bytes same
      obtain ⟨x, step⟩ := exists_next_iff.mpr (.inl kind)
      have starts : w.bytes = w.kind :: w.len :: (pairs ++ rest) := by rw [same, kind, lens]
      refine placed.safe_cons starts ?_ step ih
      rw [width, if_pos kind, size, lens, UdtOptionSack.size_long long, whole]

/-- The bytes alone decide whether the walk is safe. -/
theorem Placed.safe_iff (placed : w.Placed area) : (∃ y, Safe area w y) ↔ OptionArea w.bytes :=
  ⟨fun ⟨_, walk⟩ => walk.optionArea placed, fun options => Placed.safe options placed rfl⟩

/-- One iteration of the loop is `next`. -/
theorem Placed.handleOptionsLoop_next (placed : w.Placed area) (step : w.next = some x)
    (enough : w.width ≤ w.remainLen.toNat) (fuel : Nat) :
    w.endpoint.handleOptionsLoop (fuel + 1) w.mem w.ptr.toNat w.remainLen.toNat =
      x.endpoint.handleOptionsLoop fuel x.mem x.ptr.toNat x.remainLen.toNat := by
  obtain ⟨sum, fits, _⟩ := id placed
  have consumes := placed.next_consumes step enough
  have more := w.sizeofOption_le_width
  rw [consumes.ptr, consumes.remainLen, Endpoint.handleOptionsLoop, if_neg (by omega)]
  have kinds := exists_next_iff.mp ⟨x, step⟩
  unfold OptionWalk.next at step
  unfold width at enough ⊢
  by_cases sack : w.kind = TCPOPT_SACK
  · rw [if_pos sack] at step enough ⊢
    obtain rfl := Option.some.inj step
    refine (if_pos sack).trans (if_neg ?_)
    change ¬ w.mem.length < w.ptr.toNat + (sizeofOption + sizeofPair * w.size)
    omega
  rw [if_neg sack] at step enough ⊢
  refine (if_neg sack).trans ?_
  by_cases cwnd : w.kind = TCPOPT_CWND
  · rw [if_pos cwnd] at step enough ⊢
    obtain rfl := Option.some.inj step
    exact (if_pos cwnd).trans (if_neg (by omega))
  rw [if_neg cwnd] at step enough ⊢
  have nop := (kinds.resolve_left sack).resolve_left cwnd
  rw [if_pos nop] at step
  obtain rfl := Option.some.inj step
  exact (if_neg cwnd).trans (if_pos nop)

/-- `handle_options` as modelled takes the steps of a safe walk. -/
theorem Safe.handleOptionsLoop_eq (walk : Safe area w y) :
    w.Placed area → ∀ {fuel : Nat}, w.remainLen.toNat ≤ fuel →
      w.endpoint.handleOptionsLoop fuel w.mem w.ptr.toNat w.remainLen.toNat = (y.mem, y.endpoint) := by
  induction walk with
  | @finished w few =>
      intro placed fuel _
      rw [placed.toInt] at few
      cases fuel with
      | zero => rfl
      | succ fuel => rw [Endpoint.handleOptionsLoop, if_pos (by omega)]
  | @ended w more _ eol =>
      intro placed fuel fueled
      rw [placed.toInt] at more
      have positive : 0 < sizeofOption := by decide
      obtain ⟨fuel, rfl⟩ : ∃ n, fuel = n + 1 := ⟨fuel - 1, by omega⟩
      have sack : ¬ w.kind = TCPOPT_SACK := by rw [eol]; decide
      have cwnd : ¬ w.kind = TCPOPT_CWND := by rw [eol]; decide
      have nop : ¬ w.kind = TCPOPT_NOP := by rw [eol]; decide
      rw [Endpoint.handleOptionsLoop, if_neg (by omega)]
      exact (if_neg sack).trans ((if_neg cwnd).trans (if_neg nop))
  | @option w x y more inside step _ _ ih =>
      intro placed fuel fueled
      rw [placed.toInt] at more
      have positive : 0 < sizeofOption := by decide
      obtain ⟨fuel, rfl⟩ : ∃ n, fuel = n + 1 := ⟨fuel - 1, by omega⟩
      have enough := (placed.inside_iff (by omega)).mp inside
      have consumes := placed.next_consumes step enough
      have two := w.sizeofOption_le_width
      rw [placed.handleOptionsLoop_next step enough]
      refine ih (placed.next consumes enough) ?_
      rw [consumes.remainLen]
      omega

/-- `handle_options` as `handle_ack` calls it. -/
def start (s : Endpoint) (pkt : UdtPacket) : OptionWalk :=
  ⟨s, pkt.mem, 0, BitVec.ofNat 32 (pkt.hdr.off.toNat - UdtHdr.size)⟩

theorem start_remainLen (s : Endpoint) (pkt : UdtPacket) :
    (start s pkt).remainLen.toNat = pkt.hdr.off.toNat - UdtHdr.size := by
  have bound := pkt.hdr.off.isLt
  rw [start, BitVec.toNat_ofNat]
  omega

theorem start_placed (s : Endpoint) {pkt : UdtPacket}
    (fits : pkt.hdr.off.toNat - UdtHdr.size ≤ pkt.mem.length) :
    (start s pkt).Placed (pkt.hdr.off.toNat - UdtHdr.size) := by
  have bound := pkt.hdr.off.isLt
  refine ⟨?_, fits, by omega⟩
  rw [start_remainLen]
  exact Nat.zero_add _

theorem Safe.handleOptions_eq {s : Endpoint} {pkt : UdtPacket}
    (fits : pkt.hdr.off.toNat - UdtHdr.size ≤ pkt.mem.length)
    (walk : Safe (pkt.hdr.off.toNat - UdtHdr.size) (start s pkt) y) :
    s.handleOptions pkt = y.endpoint.rewritePkt pkt.buffer y.mem := by
  have loop := walk.handleOptionsLoop_eq (start_placed s fits) (Nat.le_refl _)
  rw [start_remainLen] at loop
  change s.handleOptionsLoop _ pkt.mem 0 _ = _ at loop
  rw [Endpoint.handleOptions, loop]

end OptionWalk

namespace Endpoint

/-- The options of `pkt`, received as `n` bytes, lie inside it, and `handle_options` walks them
without leaving them. -/
def OptionsSafe (s : Endpoint) (pkt : UdtPacket) (n : Nat) : Prop :=
  UdtHdr.size ≤ pkt.hdr.off.toNat ∧ pkt.hdr.off.toNat ≤ n ∧
    ∃ y, OptionWalk.Safe (pkt.hdr.off.toNat - UdtHdr.size) (OptionWalk.start s pkt) y ∧
      s.handleOptions pkt = y.endpoint.rewritePkt pkt.buffer y.mem

theorem optionsSafe_iff_area (s : Endpoint) {pkt : UdtPacket} {n : Nat}
    (received : pkt.hdr.off.toNat ≤ n) (fits : n ≤ UdtHdr.size + pkt.mem.length) :
    s.OptionsSafe pkt n ↔ UdtHdr.size ≤ pkt.hdr.off.toNat ∧
      OptionArea (pkt.mem.take (pkt.hdr.off.toNat - UdtHdr.size)) := by
  have fits : pkt.hdr.off.toNat - UdtHdr.size ≤ pkt.mem.length := by omega
  have area := (OptionWalk.start_placed s fits).safe_iff
  rw [OptionWalk.bytes, OptionWalk.start_remainLen] at area
  refine and_congr_right fun _ => ⟨?_, fun options => ?_⟩
  · rintro ⟨_, y, walk, _⟩
    exact area.mp ⟨y, walk⟩
  · obtain ⟨y, walk⟩ := area.mpr options
    exact ⟨received, y, walk, walk.handleOptions_eq fits⟩

/-- Whatever the state, the options of a datagram that passes the length check are walked safely
exactly when they start after the header and their bytes are options the walk is made for. -/
theorem options_safe_iff (s : Endpoint) (hdr : UdtHdr) (body slack : List UChar) (buffer : Nat)
    (good : intact hdr (UdtHdr.size + body.length)) :
    s.OptionsSafe (hostPacket hdr (body ++ slack) buffer) (UdtHdr.size + body.length) ↔
      UdtHdr.size ≤ hdr.ntoh.off.toNat ∧
        OptionArea (body.take (hdr.ntoh.off.toNat - UdtHdr.size)) := by
  obtain ⟨_, _, whole⟩ := good
  have off : (hostPacket hdr (body ++ slack) buffer).hdr.off = hdr.ntoh.off := rfl
  have mem : (hostPacket hdr (body ++ slack) buffer).mem = body ++ slack := rfl
  rw [optionsSafe_iff_area s (by rw [off]; omega) (by rw [mem, List.length_append]; omega), off, mem,
    List.take_append_of_le_length (by omega)]

/-- An acknowledgement of everything up to number 1, with options up to `off`. -/
def optionAck (off : Half) : UdtHdr := ⟨0, UdtHdr.TH_ACK, 1000, 0, off, 101, 1, 0⟩

/-- An active open whose peer's first number is 100. -/
def openedActively : Endpoint := (init 0 0 0 Env.zero).run
  [.connect 0, .datagram (UdtHdr.mk 0 (UdtHdr.TH_SYN ||| UdtHdr.TH_ACK) 1000 0 20 100 1 0) []]

/-- A selective acknowledgement of one block, and a window. -/
def sackAndCwnd : List UChar :=
  [UdtOption.TCPOPT_SACK, 10, 0, 0, 0, 2, 0, 0, 0, 4, UdtOption.TCPOPT_CWND, 6, 0, 0, 28, 176]

theorem options_safe_iff_opened : openedActively.cb.state = .established ∧
    openedActively.OptionsSafe (hostPacket (optionAck 36).hton (sackAndCwnd ++ [9, 9]) 0) 36 := by
  have area : OptionArea sackAndCwnd :=
    @OptionArea.sack [0, 0, 0, 2, 0, 0, 0, 4] _ _ (by decide) (by decide)
      (@OptionArea.cwnd [0, 0, 28, 176] _ 6 rfl (.short (by decide)))
  exact ⟨by decide +kernel, (options_safe_iff openedActively (optionAck 36).hton sackAndCwnd [9, 9] 0
    (by decide)).mpr ⟨by decide, area⟩⟩

/-- In an established connection a SACK option of length 0 takes the walk out of the datagram. -/
theorem sack_without_length :
    openedActively.cb.state = .established ∧ intact (optionAck 22).hton 22 ∧
      ¬ seqLt (optionAck 22).ack openedActively.cb.sndUna ∧
      ¬ seqGt (optionAck 22).ack openedActively.cb.sndMax ∧
      ¬ openedActively.OptionsSafe (hostPacket (optionAck 22).hton [UdtOption.TCPOPT_SACK, 0] 0) 22 := by
  refine ⟨by decide +kernel, by decide, by decide +kernel, by decide +kernel, ?_⟩
  rw [optionsSafe_iff_area _ (by decide) (by decide)]
  rintro ⟨_, options⟩
  have long : sizeofOption ≤ (0 : UChar).toNat := OptionArea.sack_long options
  exact absurd long (by decide)

end Endpoint
end UdtBoost
