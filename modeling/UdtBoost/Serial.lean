import Mathlib

/-! Serial-number arithmetic on fixed-width words. Two numbers are compared by
the sign of their wrapped difference, so the order is total only inside half of
the circle. Every comparison is characterized by the unsigned distance between
its operands, which is the form linear arithmetic can use. -/
namespace Serial

variable {w : Nat} {a b : BitVec w}

def Lt (a b : BitVec w) : Prop := (a - b).toInt < 0
def Le (a b : BitVec w) : Prop := (a - b).toInt ≤ 0

instance (a b : BitVec w) : Decidable (Lt a b) := inferInstanceAs (Decidable (_ < _))
instance (a b : BitVec w) : Decidable (Le a b) := inferInstanceAs (Decidable (_ ≤ _))

theorem toInt_neg_iff (x : BitVec w) : x.toInt < 0 ↔ 2 ^ w ≤ 2 * x.toNat := by
  rw [BitVec.toInt_eq_toNat_cond]
  have := x.isLt
  split <;> omega

theorem toInt_pos_iff (x : BitVec w) : 0 < x.toInt ↔ 0 < x.toNat ∧ 2 * x.toNat < 2 ^ w := by
  rw [BitVec.toInt_eq_toNat_cond]
  have := x.isLt
  split <;> omega

theorem lt_iff : Lt a b ↔ 2 ^ w ≤ 2 * (a - b).toNat := toInt_neg_iff _

theorem le_iff : Le a b ↔ (a - b).toNat = 0 ∨ 2 ^ w ≤ 2 * (a - b).toNat := by
  have h := toInt_pos_iff (a - b)
  have := (a - b).isLt
  unfold Le
  rw [← not_lt, h]
  omega

theorem not_le_iff : ¬ Le a b ↔ 0 < (a - b).toNat ∧ 2 * (a - b).toNat < 2 ^ w := by
  rw [← toInt_pos_iff]
  exact not_le

theorem not_lt_iff : ¬ Lt a b ↔ 2 * (a - b).toNat < 2 ^ w := by
  rw [lt_iff]
  omega

theorem le_refl (a : BitVec w) : Le a a := by simp [Le]

end Serial
