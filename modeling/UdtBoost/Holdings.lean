import Mathlib

/-! Objects that are held in places, each in one. They are made in an empty place, taken to another
empty place, and deleted where they are. -/

structure Holdings (κ α : Type*) where
  content : κ → Option α
  live : List α

namespace Holdings

variable {κ α : Type*} {h k : Holdings κ α} {x y : κ} {a : α}

/-- Every object is held in exactly one place, and nothing else is held. -/
structure Sound (h : Holdings κ α) : Prop where
  nodup : h.live.Nodup
  held : ∀ a, a ∈ h.live ↔ ∃ x, h.content x = some a
  apart : ∀ x y a, h.content x = some a → h.content y = some a → x = y

/-- Where only one place holds something, nothing else lives. -/
theorem Sound.live_of_only (sound : h.Sound) (only : ∀ y, y ≠ x → h.content y = none) :
    h.live = (h.content x).toList := by
  have inside : ∀ a ∈ h.live, h.content x = some a := by
    intro a member
    obtain ⟨y, here⟩ := (sound.held a).mp member
    by_cases same : y = x
    · exact same ▸ here
    · rw [only y same] at here
      contradiction
  cases here : h.content x with
  | none =>
      refine List.eq_nil_iff_forall_not_mem.mpr fun a member => ?_
      have found := inside a member
      rw [here] at found
      contradiction
  | some a =>
      have member : a ∈ h.live := (sound.held a).mpr ⟨x, here⟩
      refine List.perm_singleton.mp
        ((List.perm_ext_iff_of_nodup sound.nodup (List.nodup_singleton a)).mpr ?_)
      intro b
      rw [List.mem_singleton]
      constructor
      · intro other
        exact Option.some.inj ((inside b other).symm.trans here)
      · rintro rfl
        exact member

variable [DecidableEq κ]

def make (h : Holdings κ α) (x : κ) (a : α) : Holdings κ α :=
  ⟨Function.update h.content x (some a), a :: h.live⟩

def move (h : Holdings κ α) (x y : κ) : Holdings κ α :=
  ⟨Function.update (Function.update h.content x none) y (h.content x), h.live⟩

theorem content_make (h : Holdings κ α) (x y : κ) (a : α) :
    (h.make x a).content y = if y = x then some a else h.content y :=
  Function.update_apply h.content x (some a) y

theorem content_move (h : Holdings κ α) (x y z : κ) :
    (h.move x y).content z = if z = y then h.content x else if z = x then none else h.content z := by
  simp only [move, Function.update_apply]

theorem Sound.make (sound : h.Sound) (empty : h.content x = none) (fresh : a ∉ h.live) :
    (h.make x a).Sound where
  nodup := List.nodup_cons.mpr ⟨fresh, sound.nodup⟩
  held b := by
    constructor
    · intro member
      rcases List.mem_cons.mp member with rfl | old
      · exact ⟨x, by rw [content_make, if_pos rfl]⟩
      · obtain ⟨y, here⟩ := (sound.held b).mp old
        refine ⟨y, ?_⟩
        rw [content_make, if_neg ?_]
        · exact here
        · rintro rfl
          rw [empty] at here
          contradiction
    · rintro ⟨y, here⟩
      rw [content_make] at here
      split at here
      · obtain rfl := Option.some.inj here
        exact List.mem_cons_self
      · exact List.mem_cons_of_mem _ ((sound.held b).mpr ⟨y, here⟩)
  apart y z b first second := by
    rw [content_make] at first second
    split at first <;> split at second
    · rename_i one two
      exact one.trans two.symm
    · obtain rfl := Option.some.inj first
      exact absurd ((sound.held a).mpr ⟨z, second⟩) fresh
    · obtain rfl := Option.some.inj second
      exact absurd ((sound.held a).mpr ⟨y, first⟩) fresh
    · exact sound.apart y z b first second

theorem Sound.move (sound : h.Sound) (empty : h.content y = none) : (h.move x y).Sound where
  nodup := sound.nodup
  held b := by
    rw [show (h.move x y).live = h.live from rfl, sound.held b]
    constructor
    · rintro ⟨z, here⟩
      by_cases moved : z = x
      · subst moved
        exact ⟨y, by rw [content_move, if_pos rfl, here]⟩
      · refine ⟨z, ?_⟩
        rw [content_move, if_neg ?_, if_neg moved]
        · exact here
        · rintro rfl
          rw [empty] at here
          contradiction
    · rintro ⟨z, here⟩
      rw [content_move] at here
      split at here
      · exact ⟨x, here⟩
      split at here
      · contradiction
      · exact ⟨z, here⟩
  apart u v b first second := by
    have origin : ∀ z, (h.move x y).content z = some b →
        z = y ∧ h.content x = some b ∨ z ≠ x ∧ h.content z = some b := by
      intro z here
      rw [content_move] at here
      split at here
      · exact .inl ⟨‹_›, here⟩
      split at here
      · contradiction
      · exact .inr ⟨‹_›, here⟩
    rcases origin u first with ⟨rfl, one⟩ | ⟨stays, one⟩ <;>
      rcases origin v second with ⟨rfl, two⟩ | ⟨stays', two⟩
    · rfl
    · exact absurd (sound.apart _ _ b two one) stays'
    · exact absurd (sound.apart _ _ b one two) stays
    · exact sound.apart u v b one two

variable [DecidableEq α]

def drop (h : Holdings κ α) (x : κ) (a : α) : Holdings κ α :=
  ⟨Function.update h.content x none, h.live.erase a⟩

theorem content_drop (h : Holdings κ α) (x y : κ) (a : α) :
    (h.drop x a).content y = if y = x then none else h.content y :=
  Function.update_apply h.content x none y

theorem Sound.drop (sound : h.Sound) (here : h.content x = some a) : (h.drop x a).Sound where
  nodup := sound.nodup.erase a
  held b := by
    rw [show (h.drop x a).live = h.live.erase a from rfl, sound.nodup.mem_erase_iff, sound.held b]
    constructor
    · rintro ⟨other, y, there⟩
      refine ⟨y, ?_⟩
      rw [content_drop, if_neg ?_]
      · exact there
      · rintro rfl
        exact other (Option.some.inj (there.symm.trans here))
    · rintro ⟨y, there⟩
      rw [content_drop] at there
      split at there
      · contradiction
      · rename_i different
        refine ⟨?_, y, there⟩
        rintro rfl
        exact different (sound.apart y x b there here)
  apart y z b first second := by
    rw [content_drop] at first second
    split at first
    · contradiction
    split at second
    · contradiction
    exact sound.apart y z b first second

inductive Step (h : Holdings κ α) : Holdings κ α → Prop
  | stay : Step h h
  | make (x : κ) (a : α) (empty : h.content x = none) (fresh : a ∉ h.live) : Step h (h.make x a)
  | move (x y : κ) (empty : h.content y = none) : Step h (h.move x y)
  | drop (x : κ) (a : α) (here : h.content x = some a) : Step h (h.drop x a)

theorem Sound.step (sound : h.Sound) (step : h.Step k) : k.Sound := by
  cases step with
  | stay => exact sound
  | make _ _ empty fresh => exact sound.make empty fresh
  | move _ _ empty => exact sound.move empty
  | drop _ _ here => exact sound.drop here

end Holdings
