import Mathlib

/-! Pieces of a cut stream that arrive in any order and any number of times. A
receiver can hand on the longest prefix whose pieces have all arrived; the other
arrivals wait in stream order, once each. -/
namespace Pieces

variable {α : Type*} [DecidableEq α]

def delivered (pieces arrived : List α) : List α := pieces.takeWhile (· ∈ arrived)

/-- The stream from its first missing piece on. -/
def rest (pieces arrived : List α) : List α := pieces.dropWhile (· ∈ arrived)

def waiting (pieces arrived : List α) : List α := (rest pieces arrived).filter (· ∈ arrived)

theorem delivered_append_rest (pieces arrived : List α) :
    delivered pieces arrived ++ rest pieces arrived = pieces :=
  List.takeWhile_append_dropWhile

theorem mem_of_mem_delivered {pieces arrived : List α} {g : α}
    (member : g ∈ delivered pieces arrived) : g ∈ arrived := by
  simpa using List.mem_takeWhile_imp member

/-- Once nothing has been missing before, further arrivals are looked for in the rest only. -/
theorem delivered_of_subset {arrived more : List α} (grows : arrived ⊆ more) (pieces : List α) :
    delivered pieces more = delivered pieces arrived ++ delivered (rest pieces arrived) more ∧
      rest pieces more = rest (rest pieces arrived) more := by
  induction pieces with
  | nil => simp [delivered, rest]
  | cons g pieces ih =>
      by_cases here : g ∈ arrived
      · have later : g ∈ more := grows here
        simpa [delivered, rest, here, later] using ih
      · simp [delivered, rest, here]

theorem waiting_of_subset {arrived more : List α} (grows : arrived ⊆ more) (pieces : List α) :
    waiting pieces more = waiting (rest pieces arrived) more := by
  rw [waiting, (delivered_of_subset grows pieces).2, waiting]

/-- A piece that has arrived before changes nothing. -/
theorem same_of_mem {arrived : List α} {g : α} (seen : g ∈ arrived) (pieces : List α) :
    delivered pieces (arrived ++ [g]) = delivered pieces arrived ∧
      rest pieces (arrived ++ [g]) = rest pieces arrived ∧
      waiting pieces (arrived ++ [g]) = waiting pieces arrived := by
  have same : ∀ x, x ∈ arrived ++ [g] ↔ x ∈ arrived := by
    intro x
    simp only [List.mem_append, List.mem_singleton]
    exact ⟨fun h => h.elim id (fun e => e ▸ seen), .inl⟩
  simp only [delivered, rest, waiting, same, and_self]

/-- A new arrival joins the others between its neighbours. -/
theorem filter_insert {before after arrived : List α} {g : α} (new : g ∉ arrived)
    (once : (before ++ g :: after).Nodup) :
    (before ++ g :: after).filter (· ∈ arrived) =
        before.filter (· ∈ arrived) ++ after.filter (· ∈ arrived) ∧
      (before ++ g :: after).filter (· ∈ arrived ++ [g]) =
        before.filter (· ∈ arrived) ++ g :: after.filter (· ∈ arrived) := by
  have away : ∀ x ∈ before ++ after, (x ∈ arrived ++ [g] ↔ x ∈ arrived) := by
    intro x member
    have differ : x ≠ g := by
      rintro rfl
      exact (List.nodup_middle.mp once).notMem member
    simp [differ]
  have front : before.filter (· ∈ arrived ++ [g]) = before.filter (· ∈ arrived) :=
    List.filter_congr fun x member => by simp [away x (List.mem_append_left _ member)]
  have back : after.filter (· ∈ arrived ++ [g]) = after.filter (· ∈ arrived) :=
    List.filter_congr fun x member => by simp [away x (List.mem_append_right _ member)]
  constructor
  · rw [List.filter_append, List.filter_cons_of_neg (by simpa using new)]
  · rw [List.filter_append, List.filter_cons_of_pos (by simp), front, back]

end Pieces
