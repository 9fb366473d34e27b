import Mathlib

/-! Bytes found in a stream at a position of which only a number of `w` bits is known. A reader that
takes what is numbered next, and nothing else, reads a prefix of the stream. -/
namespace Excerpt

variable {α : Type*} {w : Nat} {base seq : BitVec w} {stream bytes : List α}

/-- The stream has `bytes` at a position numbered `seq`, where its start is numbered `base`. -/
def At (base : BitVec w) (stream : List α) (seq : BitVec w) (bytes : List α) : Prop :=
  ∃ k, seq = base + BitVec.ofNat w k ∧ bytes <+: stream.drop k

theorem at_nil (base : BitVec w) (stream : List α) (seq : BitVec w) : At base stream seq [] := by
  refine ⟨(seq - base).toNat, ?_, List.nil_prefix⟩
  rw [BitVec.ofNat_toNat, BitVec.setWidth_eq, BitVec.add_comm, BitVec.sub_add_cancel]

theorem At.start (head : bytes <+: stream) : At base stream base bytes :=
  ⟨0, by simp, head⟩

theorem At.mono {more : List α} (found : At base stream seq bytes) (longer : stream <+: more) :
    At base more seq bytes := by
  obtain ⟨k, number, part⟩ := found
  exact ⟨k, number, part.trans (longer.drop k)⟩

theorem At.of_drop {m : Nat} (found : At (base + BitVec.ofNat w m) (stream.drop m) seq bytes) :
    At base stream seq bytes := by
  obtain ⟨k, number, part⟩ := found
  refine ⟨m + k, ?_, ?_⟩
  · rw [number, BitVec.ofNat_add, BitVec.add_assoc]
  · rwa [← List.drop_drop]

theorem At.behind {more : List α}
    (found : At (base + BitVec.ofNat w stream.length) more seq bytes) :
    At base (stream ++ more) seq bytes := by
  apply At.of_drop (m := stream.length)
  rwa [List.drop_left]

/-- Within one circle a number tells the position. -/
theorem position_toNat (base : BitVec w) {n : Nat} (small : n < 2 ^ w) :
    (base + BitVec.ofNat w n - base).toNat = n := by
  rw [BitVec.add_comm, BitVec.add_sub_cancel, BitVec.toNat_ofNat]
  exact Nat.mod_eq_of_lt small

/-- In a stream shorter than the circle the position is known, and the bytes end inside. -/
theorem At.position (found : At base stream seq bytes) (short : stream.length < 2 ^ w)
    (some_ : bytes ≠ []) :
    (seq - base).toNat + bytes.length ≤ stream.length ∧ bytes <+: stream.drop (seq - base).toNat := by
  obtain ⟨k, rfl, part⟩ := found
  have long : 0 < bytes.length := List.length_pos_iff.mpr some_
  have length := part.length_le
  rw [List.length_drop] at length
  rw [position_toNat base (by omega)]
  exact ⟨by omega, part⟩

theorem At.getElem {i : Nat} (found : At base stream seq bytes) (short : stream.length < 2 ^ w)
    (inside : i < bytes.length) : stream[(seq - base).toNat + i]? = bytes[i]? := by
  have some_ : bytes ≠ [] := List.ne_nil_of_length_pos (by omega)
  obtain ⟨_, rest, whole⟩ := found.position short some_
  rw [← List.getElem?_drop, ← whole, List.getElem?_append_left inside]

/-- What is numbered next continues the prefix read so far. -/
theorem At.next {n : Nat} (found : At base stream (base + BitVec.ofNat w n) bytes)
    (short : stream.length < 2 ^ w) (inside : n ≤ stream.length) :
    stream.take n ++ bytes <+: stream := by
  by_cases none : bytes = []
  · rw [none, List.append_nil]
    exact List.take_prefix n stream
  · obtain ⟨_, part⟩ := found.position short none
    rw [position_toNat base (by omega)] at part
    obtain ⟨rest, whole⟩ := part
    refine ⟨rest, ?_⟩
    rw [List.append_assoc, whole, List.take_append_drop]

end Excerpt
