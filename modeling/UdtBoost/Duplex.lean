import UdtBoost.Trace

/-! Two parties of one kind that take their steps in any order. What one party knows of the other is
shown for a step of either; with what both know it then holds along every run. -/

structure Duplex (α : Type*) where
  near : α
  far : α

namespace Duplex

inductive Side where
  | near
  | far
deriving DecidableEq, Repr

section Sides

variable {α : Type*} (d : Duplex α)

def own : Side → α
  | .near => d.near
  | .far => d.far

def other : Side → α
  | .near => d.far
  | .far => d.near

end Sides

variable {α ε : Type*} (next : α → ε → α) (ok : α → α → ε → Prop)

/-- One of the parties takes a step. -/
def step (d : Duplex α) : Side × ε → Duplex α
  | (.near, e) => { d with near := next d.near e }
  | (.far, e) => { d with far := next d.far e }

def run (d : Duplex α) (es : List (Side × ε)) : Duplex α := es.foldl (step next) d

/-- Whether a step may be taken depends on the other party too. -/
def Allowed (d : Duplex α) : Side × ε → Prop
  | (.near, e) => ok d.near d.far e
  | (.far, e) => ok d.far d.near e

instance [∀ x y e, Decidable (ok x y e)] (d : Duplex α) (e : Side × ε) :
    Decidable (d.Allowed ok e) :=
  match e with
  | (.near, e) => inferInstanceAs (Decidable (ok d.near d.far e))
  | (.far, e) => inferInstanceAs (Decidable (ok d.far d.near e))

/-- `L n x y` is what `x` knows of `y` after `n` steps, as long as both parties fit. -/
structure Rule (fits : Nat → α → Prop) (L : Nat → α → α → Prop) : Prop where
  fewer : ∀ n x, fits (n + 1) x → fits n x
  before : ∀ n x e, fits n (next x e) → fits n x
  own : ∀ n x y e, ok x y e → L n x y → L n y x → fits (n + 1) (next x e) → fits (n + 1) y →
    L (n + 1) (next x e) y
  peer : ∀ n x y e, ok x y e → L n x y → L n y x → fits (n + 1) (next x e) → fits (n + 1) y →
    L (n + 1) y (next x e)

variable {next ok} {fits : Nat → α → Prop} {L : Nat → α → α → Prop} {d : Duplex α}

/-- While both parties fit, each is linked to the other. -/
def Linked (fits : Nat → α → Prop) (L : Nat → α → α → Prop) (n : Nat) (d : Duplex α) : Prop :=
  fits n d.near → fits n d.far → L n d.near d.far ∧ L n d.far d.near

theorem Rule.step (rule : Rule next ok fits L) {n : Nat} {e : Side × ε} (linked : d.Linked fits L n)
    (allowed : d.Allowed ok e) : (d.step next e).Linked fits L (n + 1) := by
  intro near far
  obtain ⟨side, e⟩ := e
  cases side with
  | near =>
      have near' := rule.before n d.near e (rule.fewer n _ near)
      obtain ⟨there, back⟩ := linked near' (rule.fewer n _ far)
      exact ⟨rule.own n _ _ e allowed there back near far, rule.peer n _ _ e allowed there back near far⟩
  | far =>
      have far' := rule.before n d.far e (rule.fewer n _ far)
      obtain ⟨there, back⟩ := linked (rule.fewer n _ near) far'
      exact ⟨rule.peer n _ _ e allowed back there far near, rule.own n _ _ e allowed back there far near⟩

theorem Rule.run_from (rule : Rule next ok fits L) {es : List (Side × ε)} {n : Nat}
    (linked : d.Linked fits L n) (allowed : Trace.Meets (Duplex.step next) (Allowed ok) d es) :
    (d.run next es).Linked fits L (n + es.length) := by
  induction es generalizing d n with
  | nil => exact linked
  | cons e es ih =>
      have later := ih (rule.step linked allowed.1) allowed.2
      rw [List.length_cons, Nat.add_comm es.length 1, ← Nat.add_assoc]
      exact later

/-- What both parties know at the start and every step keeps, they know after every run. -/
theorem Rule.run (rule : Rule next ok fits L) {es : List (Side × ε)}
    (allowed : Trace.Meets (Duplex.step next) (Allowed ok) d es)
    (brief : ∀ side, fits es.length ((d.run next es).own side))
    (begun : ∀ side, L 0 (d.own side) (d.other side)) (side : Side) :
    L es.length ((d.run next es).own side) ((d.run next es).other side) := by
  have linked := rule.run_from (n := 0) (fun _ _ => ⟨begun .near, begun .far⟩) allowed
  rw [Nat.zero_add] at linked
  obtain ⟨there, back⟩ := linked (brief .near) (brief .far)
  cases side with
  | near => exact there
  | far => exact back

end Duplex
