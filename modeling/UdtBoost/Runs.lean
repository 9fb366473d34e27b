import Mathlib

/-! Contiguous runs of a sequence of half-open intervals: neighbours are merged where one ends at
the start of the next. The runs are the maximal ones exactly where the intervals do not overlap and
the empty ones touch others. -/
namespace Runs

section Merging

variable {α β : Type*} [DecidableEq α] [DecidableEq β]

/-- Put `a` below the runs, merged with the first where it ends at its start. -/
def extend (a : α × α) : List (α × α) → List (α × α)
  | [] => [a]
  | r :: more => if a.2 = r.1 then (a.1, r.2) :: more else a :: r :: more

def runs (q : List (α × α)) : List (α × α) := q.foldr extend []

theorem extend_ne_nil (a : α × α) (rs : List (α × α)) : extend a rs ≠ [] := by
  cases rs with
  | nil => exact List.cons_ne_nil _ _
  | cons r more =>
      rw [extend]
      split <;> exact List.cons_ne_nil _ _

theorem extend_append (a x : α × α) {rs : List (α × α)} (some_ : rs ≠ []) :
    extend a (rs ++ [x]) = extend a rs ++ [x] := by
  cases rs with
  | nil => contradiction
  | cons r more =>
      rw [List.cons_append, extend, extend]
      split <;> rfl

theorem runs_eq_nil_iff {q : List (α × α)} : runs q = [] ↔ q = [] := by
  cases q with
  | nil => exact ⟨fun _ => rfl, fun _ => rfl⟩
  | cons a q => exact ⟨fun h => absurd h (extend_ne_nil _ _), fun h => by contradiction⟩

/-- Two intervals that touch at the end of the sequence count as one. -/
theorem runs_append_touching (q : List (α × α)) {a b : α × α} (touching : a.2 = b.1) :
    runs (q ++ [a, b]) = runs (q ++ [(a.1, b.2)]) := by
  rw [runs, runs, List.foldr_append, List.foldr_append]
  congr 1
  exact if_pos touching

/-- An interval after a gap is a run of its own. -/
theorem runs_append_gap (q : List (α × α)) {a b : α × α} (gap : a.2 ≠ b.1) :
    runs (q ++ [a, b]) = runs (q ++ [a]) ++ [b] := by
  rw [runs, runs, List.foldr_append, List.foldr_append]
  have last : [a, b].foldr extend [] = [a].foldr extend [] ++ [b] := if_neg gap
  rw [last]
  have some_ : [a].foldr extend [] ≠ [] := List.cons_ne_nil _ _
  generalize [a].foldr extend [] = rs at some_ ⊢
  induction q with
  | nil => rfl
  | cons c q ih =>
      rw [List.foldr_cons, List.foldr_cons, ih, extend_append]
      cases q with
      | nil => exact some_
      | cons d q => exact extend_ne_nil _ _

theorem extend_map {f : α → β} (injective : Function.Injective f) (a : α × α)
    (rs : List (α × α)) :
    extend (Prod.map f f a) (rs.map (Prod.map f f)) = (extend a rs).map (Prod.map f f) := by
  cases rs with
  | nil => rfl
  | cons r more =>
      rw [List.map_cons, extend, extend, Prod.map_snd, Prod.map_fst]
      by_cases touching : a.2 = r.1
      · rw [if_pos touching, if_pos (congrArg f touching)]
        rfl
      · rw [if_neg touching, if_neg fun same => touching (injective same)]
        rfl

theorem runs_map {f : α → β} (injective : Function.Injective f) (q : List (α × α)) :
    runs (q.map (Prod.map f f)) = (runs q).map (Prod.map f f) := by
  induction q with
  | nil => rfl
  | cons a q ih =>
      have step : runs ((a :: q).map (Prod.map f f)) =
        extend (Prod.map f f a) (runs (q.map (Prod.map f f))) := rfl
      rw [step, ih, extend_map injective]
      rfl

/-- How often an interval does not start where the one before it ends. -/
def gaps : List (α × α) → Nat
  | a :: b :: q => gaps (b :: q) + if a.2 = b.1 then 0 else 1
  | _ => 0

/-- The first run starts where the first interval does. -/
theorem runs_cons (a : α × α) (q : List (α × α)) : ∃ e more, runs (a :: q) = (a.1, e) :: more := by
  change ∃ e more, extend a (runs q) = (a.1, e) :: more
  cases runs q with
  | nil => exact ⟨a.2, [], rfl⟩
  | cons r more =>
      rw [extend]
      split
      · exact ⟨r.2, more, rfl⟩
      · exact ⟨a.2, r :: more, rfl⟩

theorem runs_length {q : List (α × α)} (some_ : q ≠ []) : (runs q).length = gaps q + 1 := by
  induction q with
  | nil => contradiction
  | cons a q ih =>
      cases q with
      | nil => rfl
      | cons b q =>
          obtain ⟨e, more, form⟩ := runs_cons b q
          have step : runs (a :: b :: q) = extend a (runs (b :: q)) := rfl
          have length := ih (List.cons_ne_nil _ _)
          rw [form, List.length_cons] at length
          rw [step, form, extend, gaps]
          split <;> simp only [List.length_cons] <;> omega

/-- Every division of the runs comes from a division of the intervals. -/
theorem runs_split {q lower upper : List (α × α)} (split : runs q = lower ++ upper) :
    ∃ low high, q = low ++ high ∧ runs low = lower ∧ runs high = upper := by
  induction q generalizing lower with
  | nil =>
      obtain ⟨rfl, rfl⟩ := List.nil_eq_append_iff.mp split
      exact ⟨[], [], rfl, rfl, rfl⟩
  | cons a q ih =>
      have step : runs (a :: q) = extend a (runs q) := rfl
      cases lower with
      | nil => exact ⟨[], a :: q, rfl, rfl, split⟩
      | cons first lower =>
          rw [step] at split
          cases form : runs q with
          | nil =>
              rw [form, extend, List.cons_append, List.cons.injEq] at split
              obtain ⟨rfl, rest⟩ := split
              obtain ⟨rfl, rfl⟩ := List.nil_eq_append_iff.mp rest
              obtain rfl := runs_eq_nil_iff.mp form
              exact ⟨[a], [], rfl, rfl, rfl⟩
          | cons r more =>
              rw [form, extend] at split
              by_cases touching : a.2 = r.1
              · rw [if_pos touching, List.cons_append, List.cons.injEq] at split
                obtain ⟨rfl, rest⟩ := split
                have parted : runs q = (r :: lower) ++ upper := by
                  rw [form, rest, List.cons_append]
                obtain ⟨low, high, rfl, below, above⟩ := ih parted
                refine ⟨a :: low, high, rfl, ?_, above⟩
                change extend a (runs low) = _
                rw [below, extend, if_pos touching]
              · rw [if_neg touching, List.cons_append, List.cons.injEq] at split
                obtain ⟨rfl, rest⟩ := split
                obtain ⟨low, high, rfl, below, above⟩ := ih (form.trans rest)
                refine ⟨a :: low, high, rfl, ?_, above⟩
                change extend a (runs low) = _
                rw [below]
                cases lower with
                | nil => rfl
                | cons r' lower =>
                    obtain ⟨rfl, _⟩ := List.cons.inj rest
                    rw [extend, if_neg touching]

/-- Across a gap, or next to nothing, the runs of the parts are the runs of the whole. -/
theorem runs_append {low high : List (α × α)}
    (apart : ∀ a ∈ low, ∀ b ∈ high.head?, a.2 ≠ b.1) :
    runs (low ++ high) = runs low ++ runs high := by
  induction low with
  | nil => rfl
  | cons a low ih =>
      change extend a (runs (low ++ high)) = extend a (runs low) ++ runs high
      rw [ih fun b member => apart b (List.mem_cons_of_mem _ member)]
      cases form : runs low with
      | cons r more =>
          rw [List.cons_append, extend, extend]
          split <;> rfl
      | nil =>
          rw [List.nil_append]
          cases high with
          | nil => rfl
          | cons b high =>
              obtain ⟨e, more, above⟩ := runs_cons b high
              rw [above]
              exact if_neg (apart a List.mem_cons_self b rfl)

end Merging

section Order

variable {α : Type*} [LinearOrder α] {q rs : List (α × α)} {a : α × α} {x : α}

def Covers (q : List (α × α)) (x : α) : Prop := ∃ a ∈ q, a.1 ≤ x ∧ x < a.2

theorem covers_cons : Covers (a :: q) x ↔ (a.1 ≤ x ∧ x < a.2) ∨ Covers q x := by
  simp [Covers]

theorem covers_append {p : List (α × α)} : Covers (p ++ q) x ↔ Covers p x ∨ Covers q x := by
  simp only [Covers, List.mem_append, or_and_right, exists_or]

/-- Intervals in order of their starts. -/
structure Ascending (q : List (α × α)) : Prop where
  valid : ∀ a ∈ q, a.1 ≤ a.2
  starts : q.Pairwise fun a b => a.1 < b.1

theorem Ascending.tail (ascending : Ascending (a :: q)) : Ascending q :=
  ⟨(List.forall_mem_cons.mp ascending.valid).2, (List.pairwise_cons.mp ascending.starts).2⟩

theorem Ascending.right {p : List (α × α)} (ascending : Ascending (p ++ q)) : Ascending q :=
  ⟨fun a member => ascending.valid a (List.mem_append_right _ member),
    (List.pairwise_append.mp ascending.starts).2.1⟩

/-- The interval meets the one before it, or holds a point and comes after a gap. -/
def Follows (a b : α × α) : Prop := a.2 = b.1 ∨ a.2 < b.1 ∧ b.1 < b.2

/-- No two intervals overlap, and an empty one starts where the one before it ends. -/
structure Tidy (q : List (α × α)) : Prop where
  first : ∀ a ∈ q.head?, a.1 < a.2
  chain : q.IsChain Follows

/-- Nonempty intervals with gaps between them. -/
structure Separate (rs : List (α × α)) : Prop where
  nonempty : ∀ r ∈ rs, r.1 < r.2
  gaps : rs.Pairwise fun a b => a.2 < b.1

/-- Every edge of a run is an edge of an interval. -/
theorem runs_edges {r : α × α} (member : r ∈ runs q) :
    (∃ a ∈ q, r.1 = a.1) ∧ ∃ b ∈ q, r.2 = b.2 := by
  induction q generalizing r with
  | nil => contradiction
  | cons a q ih =>
      have step : runs (a :: q) = extend a (runs q) := rfl
      have tail : ∀ {r}, r ∈ runs q →
          (∃ b ∈ a :: q, r.1 = b.1) ∧ ∃ b ∈ a :: q, r.2 = b.2 := by
        intro r member
        obtain ⟨⟨b, first, start⟩, c, last, stop⟩ := ih member
        exact ⟨⟨b, List.mem_cons_of_mem _ first, start⟩, c, List.mem_cons_of_mem _ last, stop⟩
      have here : (∃ b ∈ a :: q, a.1 = b.1) ∧ ∃ b ∈ a :: q, a.2 = b.2 :=
        ⟨⟨a, List.mem_cons_self, rfl⟩, a, List.mem_cons_self, rfl⟩
      rw [step] at member
      cases form : runs q with
      | nil =>
          rw [form, extend, List.mem_singleton] at member
          exact member ▸ here
      | cons s more =>
          rw [form, extend] at member
          split at member
          · rcases List.mem_cons.mp member with rfl | later
            · have next : s ∈ runs q := form ▸ List.mem_cons_self
              exact ⟨here.1, (tail next).2⟩
            · exact tail (form ▸ List.mem_cons_of_mem _ later)
          · rcases List.mem_cons.mp member with rfl | later
            · exact here
            · exact tail (form ▸ later)

theorem runs_valid (valid : ∀ a ∈ q, a.1 ≤ a.2) : ∀ r ∈ runs q, r.1 ≤ r.2 := by
  induction q with
  | nil => exact fun _ member => by contradiction
  | cons a q ih =>
      obtain ⟨first, rest⟩ := List.forall_mem_cons.mp valid
      have tail := ih rest
      have step : runs (a :: q) = extend a (runs q) := rfl
      rw [step]
      cases form : runs q with
      | nil => simpa [extend] using first
      | cons s more =>
          rw [form] at tail
          obtain ⟨next, later⟩ := List.forall_mem_cons.mp tail
          rw [extend]
          split
          · next touching =>
              refine List.forall_mem_cons.mpr ⟨?_, later⟩
              exact first.trans (touching.le.trans next)
          · exact List.forall_mem_cons.mpr ⟨first, tail⟩

/-- Merging neither adds points nor loses any. -/
theorem covers_runs (valid : ∀ a ∈ q, a.1 ≤ a.2) : Covers (runs q) x ↔ Covers q x := by
  induction q with
  | nil => exact Iff.rfl
  | cons a q ih =>
      obtain ⟨first, rest⟩ := List.forall_mem_cons.mp valid
      have tail := ih rest
      have step : runs (a :: q) = extend a (runs q) := rfl
      rw [step, covers_cons, ← tail]
      cases form : runs q with
      | nil => rw [extend, covers_cons]
      | cons s more =>
          have later : s.1 ≤ s.2 := runs_valid rest s (form ▸ List.mem_cons_self)
          rw [extend]
          split
          · next touching =>
              rw [covers_cons, covers_cons, ← or_assoc]
              refine or_congr_left ⟨fun ⟨lower, upper⟩ => ?_, ?_⟩
              · rcases lt_or_ge x a.2 with below | above
                · exact .inl ⟨lower, below⟩
                · exact .inr ⟨touching ▸ above, upper⟩
              · rintro (⟨lower, upper⟩ | ⟨lower, upper⟩)
                · exact ⟨lower, upper.trans_le (touching.le.trans later)⟩
                · exact ⟨first.trans (touching.le.trans lower), upper⟩
          · rw [covers_cons]

/-- An interval that is a run's first holds a point if the run does. -/
theorem first_iff (ascending : Ascending q) {r : α × α} {more : List (α × α)}
    (form : runs q = r :: more) : (∀ a ∈ q.head?, a.1 < a.2) ↔ r.1 < r.2 := by
  cases q with
  | nil => contradiction
  | cons a q =>
      have head : (∀ b ∈ (a :: q).head?, b.1 < b.2) ↔ a.1 < a.2 := by simp
      have step : runs (a :: q) = extend a (runs q) := rfl
      have valid : a.1 ≤ a.2 := ascending.valid a List.mem_cons_self
      rw [head]
      rw [step] at form
      cases rest : runs q with
      | nil =>
          rw [rest, extend] at form
          obtain ⟨rfl, _⟩ := List.cons.inj form
          exact Iff.rfl
      | cons s later =>
          rw [rest, extend] at form
          split at form
          · next touching =>
              obtain ⟨rfl, _⟩ := List.cons.inj form
              obtain ⟨⟨b, queued, start⟩, _⟩ := runs_edges (rest ▸ List.mem_cons_self : s ∈ runs q)
              have above : a.1 < b.1 := (List.pairwise_cons.mp ascending.starts).1 b queued
              have holds : a.1 < a.2 := by rwa [touching, start]
              have filled : s.1 ≤ s.2 :=
                runs_valid ascending.tail.valid s (rest ▸ List.mem_cons_self)
              exact ⟨fun _ => holds.trans_le (touching.le.trans filled), fun _ => holds⟩
          · obtain ⟨rfl, _⟩ := List.cons.inj form
            exact Iff.rfl

/-- The runs after the first hold points, with gaps before them, if the intervals follow another. -/
theorem chain_iff (ascending : Ascending q) {r : α × α} {more : List (α × α)}
    (form : runs q = r :: more) :
    q.IsChain Follows ↔
      (∀ s ∈ more, s.1 < s.2) ∧ (r :: more).Pairwise fun a b => a.2 < b.1 := by
  induction q generalizing r more with
  | nil => contradiction
  | cons a q ih =>
      have step : runs (a :: q) = extend a (runs q) := rfl
      rw [step] at form
      cases q with
      | nil =>
          obtain ⟨rfl, rfl⟩ := List.cons.inj form
          simp
      | cons b q =>
          obtain ⟨e, later, rest⟩ := runs_cons b q
          have first := first_iff ascending.tail rest
          have tail := ih ascending.tail rest
          have head : (∀ c ∈ (b :: q).head?, c.1 < c.2) ↔ b.1 < b.2 := by simp
          rw [head] at first
          rw [List.isChain_cons_cons, tail]
          rw [rest, extend] at form
          by_cases touching : a.2 = b.1
          · rw [if_pos touching] at form
            obtain ⟨rfl, rfl⟩ := List.cons.inj form
            rw [List.pairwise_cons, List.pairwise_cons]
            exact ⟨fun both => both.2, fun both => ⟨.inl touching, both⟩⟩
          · rw [if_neg touching] at form
            obtain ⟨rfl, rfl⟩ := List.cons.inj form
            have follows : Follows a b ↔ a.2 < b.1 ∧ b.1 < e := by
              unfold Follows
              rw [or_iff_right touching, first]
            rw [follows, List.forall_mem_cons, List.pairwise_cons (a := a)]
            constructor
            · rintro ⟨⟨gap, holds⟩, filled, gaps⟩
              refine ⟨⟨holds, filled⟩, ?_, gaps⟩
              refine List.forall_mem_cons.mpr ⟨gap, fun s member => ?_⟩
              exact gap.trans (holds.trans ((List.pairwise_cons.mp gaps).1 s member))
            · rintro ⟨⟨holds, filled⟩, above, gaps⟩
              exact ⟨⟨(List.forall_mem_cons.mp above).1, holds⟩, filled, gaps⟩

/-- The runs are separate exactly if the intervals are tidy. -/
theorem separate_runs_iff (ascending : Ascending q) : Separate (runs q) ↔ Tidy q := by
  cases form : runs q with
  | nil =>
      obtain rfl := runs_eq_nil_iff.mp form
      exact ⟨fun _ => ⟨by simp, .nil⟩, fun _ => ⟨by simp, .nil⟩⟩
  | cons r more =>
      have first := first_iff ascending form
      have chain := chain_iff ascending form
      constructor
      · rintro ⟨filled, gaps⟩
        obtain ⟨here, later⟩ := List.forall_mem_cons.mp filled
        exact ⟨first.mpr here, chain.mpr ⟨later, gaps⟩⟩
      · rintro ⟨holds, follows⟩
        obtain ⟨later, gaps⟩ := chain.mp follows
        exact ⟨List.forall_mem_cons.mpr ⟨first.mp holds, later⟩, gaps⟩

end Order

section Points

variable {q rs low high : List (ℕ × ℕ)} {r : ℕ × ℕ} {most x : ℕ}

/-- `rs` are the highest maximal runs of points that `q` covers, from the highest down: `most` of
them, or all there are. -/
structure Highest (q rs : List (ℕ × ℕ)) (most : ℕ) : Prop where
  nonempty : ∀ r ∈ rs, r.1 < r.2
  descending : rs.Pairwise fun r s => s.2 < r.1
  inside : ∀ r ∈ rs, ∀ x, r.1 ≤ x → x < r.2 → Covers q x
  ended : ∀ r ∈ rs, ¬ Covers q r.2
  begun : ∀ r ∈ rs, ∀ x, x + 1 = r.1 → ¬ Covers q x
  highest : ∀ x, Covers q x → Covers rs x ∨ ∀ r ∈ rs, x < r.1
  all : rs.length < most → ∀ x, Covers q x → Covers rs x

/-- Down to the last of `most` runs no intervals overlap and no empty one stands alone, and none of
those below reaches up to it. -/
def Clear (q : List (ℕ × ℕ)) (most : ℕ) : Prop :=
  ∃ low high, q = low ++ high ∧ Tidy high ∧
    (low = [] ∨ high ≠ [] ∧ gaps high + 1 = most ∧ ∀ a ∈ low, ∀ b ∈ high.head?, a.2 < b.1)

theorem Separate.order (gaps : rs.Pairwise fun a b => a.2 < b.1) {s : ℕ × ℕ} (first : r ∈ rs)
    (second : s ∈ rs) : r = s ∨ r.2 < s.1 ∨ s.2 < r.1 := by
  induction rs with
  | nil => contradiction
  | cons t rs ih =>
      obtain ⟨above, gaps⟩ := List.pairwise_cons.mp gaps
      rcases List.mem_cons.mp first with rfl | early
      · rcases List.mem_cons.mp second with rfl | late
        · exact .inl rfl
        · exact .inr (.inl (above s late))
      · rcases List.mem_cons.mp second with rfl | late
        · exact .inr (.inr (above r early))
        · exact ih gaps early late

/-- Next to a run, on either side, there is a point that no run covers. -/
theorem Separate.edges (separate : Separate rs) (member : r ∈ rs) :
    ¬ Covers rs r.2 ∧ ∀ x, x + 1 = r.1 → ¬ Covers rs x := by
  have filled := separate.nonempty r member
  constructor
  · rintro ⟨s, other, start, stop⟩
    rcases Separate.order separate.gaps member other with rfl | above | below <;> omega
  · rintro x before ⟨s, other, start, stop⟩
    have filled' := separate.nonempty s other
    rcases Separate.order separate.gaps member other with rfl | above | below <;> omega

/-- The top runs are separate, and what lies under them is runs too. -/
theorem Highest.clear (ascending : Ascending q) (some_ : 1 ≤ most)
    (highest : Highest q ((runs q).reverse.take most) most) : Clear q most := by
  rw [List.take_reverse] at highest
  obtain ⟨low, high, rfl, below, above⟩ :=
    runs_split (List.take_append_drop ((runs q).length - most) (runs q)).symm
  rw [← above] at highest
  have separate : Separate (runs high) := by
    refine ⟨fun r member => highest.nonempty r (List.mem_reverse.mpr member), ?_⟩
    exact List.pairwise_reverse.mp highest.descending
  refine ⟨low, high, rfl, (separate_runs_iff ascending.right).mp separate, ?_⟩
  by_cases few : (runs (low ++ high)).length ≤ most
  · left
    rw [Nat.sub_eq_zero_of_le few, List.take_zero] at below
    exact runs_eq_nil_iff.mp below
  · right
    have length : (runs high).length = most := by
      rw [above, List.length_drop]
      omega
    have some_high : high ≠ [] := by
      rintro rfl
      have : (runs ([] : List (ℕ × ℕ))).length = 0 := rfl
      omega
    refine ⟨some_high, (runs_length some_high).symm.trans length, ?_⟩
    intro a member b first
    by_contra reaches
    cases high with
    | nil => contradiction
    | cons c rest =>
        obtain rfl := Option.some.inj first
        obtain ⟨e, more, form⟩ := runs_cons c rest
        have start : a.1 < c.1 :=
          (List.pairwise_append.mp ascending.starts).2.2 a member c List.mem_cons_self
        have run : (c.1, e) ∈ (runs (c :: rest)).reverse := by
          rw [form]
          exact List.mem_reverse.mpr List.mem_cons_self
        refine highest.begun _ run (c.1 - 1) (by dsimp only; omega) ?_
        exact ⟨a, List.mem_append_left _ member, by omega, by omega⟩

/-- What is out of reach of the top runs does not matter to them. -/
theorem Clear.top (below : low = [] ∨
    high ≠ [] ∧ gaps high + 1 = most ∧ ∀ a ∈ low, ∀ b ∈ high.head?, a.2 < b.1) :
    (runs (low ++ high)).reverse.take most = (runs high).reverse.take most := by
  rcases below with rfl | ⟨some_, count, under⟩
  · rw [List.nil_append]
  · have length := runs_length some_
    rw [runs_append fun a member b first => (under a member b first).ne, List.reverse_append]
    exact List.take_append_of_le_length (by rw [List.length_reverse]; omega)

theorem Clear.highest (ascending : Ascending q) (clear : Clear q most) :
    Highest q ((runs q).reverse.take most) most := by
  obtain ⟨low, high, rfl, tidy, below⟩ := clear
  have separate := (separate_runs_iff ascending.right).mpr tidy
  have same : ∀ x, Covers (runs high) x ↔ Covers high x := fun x => covers_runs ascending.right.valid
  have under : ∀ a ∈ low, ∀ r ∈ runs high, a.2 < r.1 := by
    rcases below with rfl | ⟨_, _, under⟩
    · exact fun a member => by contradiction
    intro a member r run
    cases high with
    | nil => contradiction
    | cons b high =>
        obtain ⟨e, more, form⟩ := runs_cons b high
        have start : a.2 < b.1 := under a member b rfl
        rw [form] at run separate
        rcases List.mem_cons.mp run with rfl | later
        · exact start
        · have filled : b.1 < e := separate.nonempty _ List.mem_cons_self
          have above : e < r.1 := (List.pairwise_cons.mp separate.gaps).1 r later
          omega
  rw [Clear.top below]
  have run : ∀ {r}, r ∈ (runs high).reverse.take most → r ∈ runs high :=
    fun member => List.mem_reverse.mp (List.mem_of_mem_take member)
  have descending := List.pairwise_reverse.mpr separate.gaps
  refine ⟨fun r member => separate.nonempty r (run member),
    descending.sublist (List.take_sublist _ _), ?_, ?_, ?_, ?_, ?_⟩
  · intro r member x lower upper
    exact covers_append.mpr (.inr ((same x).mp ⟨r, run member, lower, upper⟩))
  · intro r member covered
    have filled := separate.nonempty r (run member)
    rcases covers_append.mp covered with ⟨a, queued, _, stop⟩ | covered
    · have := under a queued r (run member)
      omega
    · exact (separate.edges (run member)).1 ((same _).mpr covered)
  · intro r member x before covered
    rcases covers_append.mp covered with ⟨a, queued, _, stop⟩ | covered
    · have := under a queued r (run member)
      omega
    · exact (separate.edges (run member)).2 x before ((same _).mpr covered)
  · intro x covered
    rcases covers_append.mp covered with ⟨a, queued, _, stop⟩ | covered
    · right
      intro r member
      have := under a queued r (run member)
      omega
    · obtain ⟨s, member, lower, upper⟩ := (same x).mpr covered
      have parts := List.take_append_drop most (runs high).reverse
      rw [← List.mem_reverse, ← parts] at member
      rcases List.mem_append.mp member with top | rest
      · exact .inl ⟨s, top, lower, upper⟩
      · right
        intro r member
        rw [← parts] at descending
        have := (List.pairwise_append.mp descending).2.2 r member s rest
        omega
  · intro few x covered
    rw [List.length_take, List.length_reverse] at few
    rcases below with rfl | ⟨some_, count, _⟩
    · obtain ⟨s, member, lower, upper⟩ := (same x).mpr covered
      rw [List.take_of_length_le (by rw [List.length_reverse]; omega)]
      exact ⟨s, List.mem_reverse.mpr member, lower, upper⟩
    · have length := runs_length some_
      omega

theorem highest_iff (ascending : Ascending q) (some_ : 1 ≤ most) :
    Highest q ((runs q).reverse.take most) most ↔ Clear q most :=
  ⟨fun highest => highest.clear ascending some_, fun clear => clear.highest ascending⟩

end Points
end Runs
