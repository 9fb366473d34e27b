import Mathlib

/-! Labelled paths and runs in which every step meets a condition where it is taken.
An invariant is shown once for a step and then holds along every path and run. -/
namespace Trace

variable {σ α : Type*} {step : σ → α → σ → Prop} {C D : σ → α → Prop} {s t u : σ}

inductive Path (step : σ → α → σ → Prop) (C : σ → α → Prop) : σ → σ → Prop
  | refl (s : σ) : Path step C s s
  | tail {s t u : σ} (a : α) : Path step C s t → C t a → step t a u → Path step C s u

theorem Path.single {a : α} (met : C s a) (taken : step s a t) : Path step C s t :=
  .tail a (.refl s) met taken

theorem Path.trans (first : Path step C s t) (second : Path step C t u) : Path step C s u := by
  induction second with
  | refl => exact first
  | tail a _ met taken ih => exact .tail a ih met taken

theorem Path.mono (path : Path step C s t) (weaker : ∀ s a, C s a → D s a) :
    Path step D s t := by
  induction path with
  | refl => exact .refl _
  | tail a _ met taken ih => exact .tail a ih (weaker _ a met) taken

theorem Path.invariant {I : σ → Prop} (path : Path step C s t) (holds : I s)
    (keep : ∀ s a t, I s → C s a → step s a t → I t) : I t := by
  induction path with
  | refl => exact holds
  | tail a _ met taken ih => exact keep _ a _ ih met taken

section Runs

variable {ε : Type*} (next : σ → ε → σ) (P : σ → ε → Prop)

/-- Every event of the run meets the condition in the state it finds. -/
def Meets : σ → List ε → Prop
  | _, [] => True
  | s, e :: es => P s e ∧ Meets (next s e) es

instance Meets.decidable [∀ s e, Decidable (P s e)] :
    ∀ s es, Decidable (Meets next P s es)
  | _, [] => .isTrue trivial
  | s, e :: es =>
      have := Meets.decidable (next s e) es
      inferInstanceAs (Decidable (P s e ∧ Meets next P (next s e) es))

variable {next P}

theorem Meets.invariant {I : σ → Prop} {es : List ε} (met : Meets next P s es) (holds : I s)
    (keep : ∀ s e, I s → P s e → I (next s e)) : I (es.foldl next s) := by
  induction es generalizing s with
  | nil => exact holds
  | cons e es ih => exact ih met.2 (keep s e holds met.1)

/-- Along a run that meets `P` and keeps an invariant, what both imply is met too. -/
theorem Meets.imp {I : σ → Prop} {Q : σ → ε → Prop} {es : List ε} (met : Meets next P s es)
    (holds : I s) (keep : ∀ s e, I s → P s e → I (next s e))
    (weaker : ∀ s e, I s → P s e → Q s e) : Meets next Q s es := by
  induction es generalizing s with
  | nil => trivial
  | cons e es ih => exact ⟨weaker s e holds met.1, ih met.2 (keep s e holds met.1)⟩

theorem meets_congr {Q : σ → ε → Prop} {es : List ε} (same : ∀ s e, P s e ↔ Q s e) :
    Meets next P s es ↔ Meets next Q s es := by
  induction es generalizing s with
  | nil => exact Iff.rfl
  | cons e es ih => exact and_congr (same s e) ih

theorem meets_append {es fs : List ε} : Meets next P s (es ++ fs) ↔
    Meets next P s es ∧ Meets next P (es.foldl next s) fs := by
  induction es generalizing s with
  | nil => exact (iff_of_eq (true_and _)).symm
  | cons e es ih =>
      rw [List.cons_append, List.foldl_cons]
      exact (and_congr_right fun _ => ih).trans and_assoc.symm

theorem Meets.trivial_of {s : σ} (es : List ε) (always : ∀ s e, P s e) : Meets next P s es := by
  induction es generalizing s with
  | nil => trivial
  | cons e es ih => exact ⟨always s e, ih⟩

end Runs

section Answers

variable {ε : Type*} (next : σ → ε → σ) (s : σ) (answers : Nat → ε)

/-- The states of an endless run whose `n`-th step takes the `n`-th answer. -/
def states : Nat → σ
  | 0 => s
  | n + 1 => next (states n) (answers n)

variable {next s answers}

theorem states_invariant {I : σ → Prop} (holds : I s)
    (keep : ∀ n, I (states next s answers n) → I (next (states next s answers n) (answers n)))
    (n : Nat) : I (states next s answers n) := by
  induction n with
  | zero => exact holds
  | succ n ih => exact keep n ih

/-- Where every step from one active state to another lowers a measure, the run leaves the active
states. -/
theorem states_leave {Active : σ → Prop} (μ : σ → Nat)
    (lower : ∀ n, Active (states next s answers n) → Active (states next s answers (n + 1)) →
      μ (states next s answers (n + 1)) < μ (states next s answers n)) :
    ∃ n, ¬ Active (states next s answers n) := by
  by_contra active
  have active : ∀ n, Active (states next s answers n) := by simpa using active
  have bound : ∀ n, μ (states next s answers n) + n ≤ μ s := by
    intro n
    induction n with
    | zero => exact le_rfl
    | succ n ih =>
      have := lower n (active n) (active (n + 1))
      omega
  have := bound (μ s + 1)
  omega

end Answers

end Trace
