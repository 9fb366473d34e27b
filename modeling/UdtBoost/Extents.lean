import Mathlib

/-! Half-open extents of natural numbers that follow one another in a list. An element has a start
and a length; nothing else of it matters. -/
namespace Extents

variable {α β : Type*} {start start' len len' : α → Nat} {lo mid hi lo' hi' : Nat} {q : α}
  {qs rs : List α}

/-- The extents of `qs` are not empty, lie between `lo` and `hi`, and follow one another. -/
def Laid (start len : α → Nat) : Nat → Nat → List α → Prop
  | lo, hi, [] => lo ≤ hi
  | lo, hi, q :: qs => lo ≤ start q ∧ 0 < len q ∧ Laid start len (start q + len q) hi qs

/-- The number `x` is one of those `q` holds. -/
def Holds (start len : α → Nat) (x : Nat) (q : α) : Prop := start q ≤ x ∧ x < start q + len q

instance (x : Nat) : DecidablePred (Holds start len x) :=
  fun q => inferInstanceAs (Decidable (start q ≤ x ∧ x < start q + len q))

theorem Laid.le (laid : Laid start len lo hi qs) : lo ≤ hi := by
  induction qs generalizing lo with
  | nil => exact laid
  | cons q qs ih =>
      obtain ⟨above, _, rest⟩ := laid
      exact (above.trans (Nat.le_add_right _ _)).trans (ih rest)

theorem Laid.mem (laid : Laid start len lo hi qs) (member : q ∈ qs) :
    lo ≤ start q ∧ 0 < len q ∧ start q + len q ≤ hi := by
  induction qs generalizing lo with
  | nil => contradiction
  | cons r qs ih =>
      obtain ⟨above, some_, rest⟩ := laid
      rcases List.mem_cons.mp member with rfl | later
      · exact ⟨above, some_, rest.le⟩
      · obtain ⟨after, bounds⟩ := ih rest later
        exact ⟨by omega, bounds⟩

theorem Laid.lower (laid : Laid start len lo hi qs) (below : lo' ≤ lo) :
    Laid start len lo' hi qs := by
  cases qs with
  | nil => exact below.trans laid
  | cons q qs => exact ⟨below.trans laid.1, laid.2⟩

theorem Laid.extend (laid : Laid start len lo hi qs) (above : hi ≤ hi') :
    Laid start len lo hi' qs := by
  induction qs generalizing lo with
  | nil => exact Nat.le_trans laid above
  | cons q qs ih => exact ⟨laid.1, laid.2.1, ih laid.2.2⟩

/-- The lower bound moves up to where the first extent starts, or to the end if there is none. -/
theorem Laid.raise (laid : Laid start len lo hi qs) (first : ∀ q, qs.head? = some q → lo' ≤ start q)
    (below : lo' ≤ hi) : Laid start len lo' hi qs := by
  cases qs with
  | nil => exact below
  | cons q qs => exact ⟨first q rfl, laid.2⟩

theorem laid_append_iff :
    Laid start len lo hi (qs ++ rs) ↔ ∃ mid, Laid start len lo mid qs ∧ Laid start len mid hi rs := by
  induction qs generalizing lo with
  | nil =>
      constructor
      · exact fun laid => ⟨lo, Nat.le_refl lo, laid⟩
      · rintro ⟨mid, below, laid⟩
        exact laid.lower below
  | cons q qs ih =>
      constructor
      · rintro ⟨above, some_, rest⟩
        obtain ⟨mid, first, second⟩ := ih.mp rest
        exact ⟨mid, ⟨above, some_, first⟩, second⟩
      · rintro ⟨mid, ⟨above, some_, first⟩, second⟩
        exact ⟨above, some_, ih.mpr ⟨mid, first, second⟩⟩

theorem Laid.append (first : Laid start len lo mid qs) (second : Laid start len mid hi rs) :
    Laid start len lo hi (qs ++ rs) :=
  laid_append_iff.mpr ⟨mid, first, second⟩

theorem Laid.sublist (laid : Laid start len lo hi qs) (sub : rs.Sublist qs) :
    Laid start len lo hi rs := by
  induction sub generalizing lo with
  | slnil => exact laid
  | cons q _ ih =>
      exact ih (laid.2.2.lower (laid.1.trans (Nat.le_add_right _ _)))
  | cons_cons q _ ih => exact ⟨laid.1, laid.2.1, ih laid.2.2⟩

/-- All extents together fit between the bounds. -/
theorem Laid.sum_le (laid : Laid start len lo hi qs) : lo + (qs.map len).sum ≤ hi := by
  induction qs generalizing lo with
  | nil => exact laid
  | cons q qs ih =>
      have rest := ih laid.2.2
      have above := laid.1
      rw [List.map_cons, List.sum_cons]
      omega

theorem Laid.pairwise (laid : Laid start len lo hi qs) :
    qs.Pairwise fun q r => start q + len q ≤ start r := by
  induction qs generalizing lo with
  | nil => exact .nil
  | cons q qs ih => exact .cons (fun r later => (laid.2.2.mem later).1) (ih laid.2.2)

/-- An extent that starts before another one ends does not reach further. -/
theorem Laid.within {r : α} (laid : Laid start len lo hi qs) (here : q ∈ qs) (there : r ∈ qs)
    (below : start r < start q + len q) : start r + len r ≤ start q + len q := by
  induction qs generalizing lo with
  | nil => contradiction
  | cons a qs ih =>
      obtain ⟨_, _, rest⟩ := laid
      rcases List.mem_cons.mp here with rfl | later
      · rcases List.mem_cons.mp there with rfl | behind
        · exact Nat.le_refl _
        · have after := (rest.mem behind).1
          omega
      · rcases List.mem_cons.mp there with rfl | behind
        · have after := rest.mem later
          omega
        · exact ih rest later behind

/-- No number is held twice. -/
theorem Laid.countP_le (laid : Laid start len lo hi qs) (x : Nat) :
    qs.countP (fun q => decide (Holds start len x q)) ≤ 1 := by
  induction qs generalizing lo with
  | nil => exact Nat.zero_le _
  | cons q qs ih =>
      rw [List.countP_cons]
      by_cases here : Holds start len x q
      · have others : qs.countP (fun q => decide (Holds start len x q)) = 0 := by
          rw [List.countP_eq_zero]
          intro r later
          have after := (laid.2.2.mem later).1
          have below := here.2
          rw [decide_eq_true_eq]
          exact fun again => by
            have := again.1
            omega
        rw [others]
        split <;> omega
      · rw [if_neg (by simpa using here)]
        exact ih laid.2.2

/-- Positions seen from a point `d` further on. -/
theorem laid_shift_iff {d : Nat} (shift : ∀ q ∈ qs, start' q + d = start q) :
    Laid start' len lo hi qs ↔ Laid start len (lo + d) (hi + d) qs := by
  induction qs generalizing lo with
  | nil => exact Nat.add_le_add_iff_right.symm
  | cons q qs ih =>
      obtain ⟨here, later⟩ := List.forall_mem_cons.mp shift
      rw [Laid, Laid, ih later, ← here, Nat.add_le_add_iff_right, Nat.add_right_comm]

/-- Only the starts and the lengths matter. -/
theorem laid_map_iff {f : β → α} {qs : List β} :
    Laid start len lo hi (qs.map f) ↔ Laid (start ∘ f) (len ∘ f) lo hi qs := by
  induction qs generalizing lo with
  | nil => exact Iff.rfl
  | cons q qs ih => exact and_congr_right fun _ => and_congr_right fun _ => ih

/-- The extents of `qs` leave no gap between `lo` and `hi`. -/
def Tiled (start len : α → Nat) : Nat → Nat → List α → Prop
  | lo, hi, [] => lo = hi
  | lo, hi, q :: qs => start q = lo ∧ 0 < len q ∧ Tiled start len (lo + len q) hi qs

theorem Tiled.laid (tiled : Tiled start len lo hi qs) : Laid start len lo hi qs := by
  induction qs generalizing lo with
  | nil => exact Nat.le_of_eq tiled
  | cons q qs ih =>
      obtain ⟨rfl, some_, rest⟩ := tiled
      exact ⟨Nat.le_refl _, some_, ih rest⟩

theorem Tiled.append (first : Tiled start len lo mid qs) (second : Tiled start len mid hi rs) :
    Tiled start len lo hi (qs ++ rs) := by
  induction qs generalizing lo with
  | nil =>
      obtain rfl : lo = mid := first
      exact second
  | cons q qs ih => exact ⟨first.1, first.2.1, ih first.2.2⟩

theorem Tiled.sum_eq (tiled : Tiled start len lo hi qs) : lo + (qs.map len).sum = hi := by
  induction qs generalizing lo with
  | nil => exact tiled
  | cons q qs ih =>
      have rest := ih tiled.2.2
      rw [List.map_cons, List.sum_cons]
      omega

theorem Tiled.eq_nil (tiled : Tiled start len lo lo qs) : qs = [] := by
  cases qs with
  | nil => rfl
  | cons q qs =>
      have fits := tiled.2.2.laid.le
      have some_ := tiled.2.1
      omega

/-- Every number between the bounds is held. -/
theorem Tiled.covers (tiled : Tiled start len lo hi qs) {x : Nat} (above : lo ≤ x) (below : x < hi) :
    ∃ q ∈ qs, Holds start len x q := by
  induction qs generalizing lo with
  | nil =>
      obtain rfl : lo = hi := tiled
      omega
  | cons q qs ih =>
      obtain ⟨rfl, some_, rest⟩ := tiled
      by_cases here : x < start q + len q
      · exact ⟨q, List.mem_cons_self, above, here⟩
      · obtain ⟨r, later, holds⟩ := ih rest (by omega)
        exact ⟨r, List.mem_cons_of_mem _ later, holds⟩

/-- Two extents that are one and the same, or have nothing in common. -/
def Apart (start len : α → Nat) (q r : α) : Prop :=
  len q = 0 ∨ len r = 0 ∨ start q = start r ∧ len q = len r ∨
    start q + len q ≤ start r ∨ start r + len r ≤ start q

/-- The point `a` is not inside the extent. -/
def Cut (start len : α → Nat) (a : Nat) (q : α) : Prop :=
  len q = 0 ∨ a ≤ start q ∨ start q + len q ≤ a

theorem Laid.apart {r : α} (laid : Laid start len lo hi qs) (here : q ∈ qs) (there : r ∈ qs) :
    Apart start len q r := by
  unfold Apart
  induction qs generalizing lo with
  | nil => contradiction
  | cons a qs ih =>
      obtain ⟨_, _, rest⟩ := laid
      rcases List.mem_cons.mp here with rfl | later
      · rcases List.mem_cons.mp there with rfl | behind
        · exact .inr (.inr (.inl ⟨rfl, rfl⟩))
        · exact .inr (.inr (.inr (.inl (rest.mem behind).1)))
      · rcases List.mem_cons.mp there with rfl | behind
        · exact .inr (.inr (.inr (.inr (rest.mem later).1)))
        · exact ih rest later behind

/-- A point moves on over an extent as a whole. -/
theorem Cut.next {r : α} (cut : Cut start len (start r) q) (apart : Apart start len r q) :
    Cut start len (start r + len r) q := by
  unfold Cut Apart at *
  omega

end Extents
