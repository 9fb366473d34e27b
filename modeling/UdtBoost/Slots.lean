import Mathlib

/-! Numbered workers that come one after another in slots. A worker posts its completion to a queue;
the completion that is delivered empties its slot, whatever worker is there then. -/
@[ext] structure Slots (κ : Type*) where
  /-- The worker in each slot, and the last one put there. -/
  alive : κ → Option Nat
  latest : κ → Option Nat
  /-- The completions posted and not delivered, with the slots they name. -/
  queued : List (κ × Nat)
  called : List Nat
  next : Nat

namespace Slots

variable {κ : Type*} [DecidableEq κ] {s t : Slots κ}

def empty : Slots κ := ⟨fun _ => none, fun _ => none, [], [], 0⟩

/-- A new worker in slot `p`. -/
def request (s : Slots κ) (p : κ) : Slots κ where
  alive := Function.update s.alive p (some s.next)
  latest := Function.update s.latest p (some s.next)
  queued := s.queued
  called := s.called
  next := s.next + 1

def post (s : Slots κ) (p : κ) (i : Nat) : Slots κ := { s with queued := s.queued ++ [(p, i)] }

/-- The completion of worker `i`, delivered to slot `p`. -/
def deliver (s : Slots κ) (p : κ) (i : Nat) : Slots κ where
  alive := Function.update s.alive p none
  latest := s.latest
  queued := s.queued.tail
  called := s.called ++ [i]
  next := s.next

/-- The slots of `t` are as in `s`, or empty and forgotten. -/
def Kept (s t : Slots κ) : Prop :=
  ∀ p, (t.alive p = s.alive p ∧ t.latest p = s.latest p) ∨ (t.alive p = none ∧ t.latest p = none)

/-- The steps in which no worker disturbs another one: a request finds no completion queued for its
slot, and no worker posts a completion while one of its own is queued. -/
inductive Step : Slots κ → Slots κ → Prop
  | forget {s t : Slots κ} (kept : Kept s t) (queued : t.queued = s.queued)
      (called : t.called = s.called) (next : t.next = s.next) : Step s t
  | request {s : Slots κ} (p : κ) (quiet : ∀ x ∈ s.queued, x.1 ≠ p) : Step s (s.request p)
  | post {s : Slots κ} (p : κ) (i : Nat) (there : s.alive p = some i)
      (silent : ∀ x ∈ s.queued, x.2 ≠ i) : Step s (s.post p i)
  | deliver {s : Slots κ} (p : κ) (i : Nat) (rest : List (κ × Nat))
      (first : s.queued = (p, i) :: rest) : Step s (s.deliver p i)
  | discard {s : Slots κ} (p : κ) (i : Nat) (rest : List (κ × Nat))
      (first : s.queued = (p, i) :: rest) : Step s { s with queued := rest }

/-- What holds between steps. -/
structure Sound (s : Slots κ) : Prop where
  once : (s.queued.map Prod.snd ++ s.called).Nodup
  old : ∀ i ∈ s.queued.map Prod.snd ++ s.called, i < s.next
  fresh : ∀ p i, s.alive p = some i → i < s.next ∧ i ∉ s.called
  mine : ∀ p i j, s.alive p = some i → (p, j) ∈ s.queued → j = i
  placed : ∀ p q i, s.alive p = some i → (q, i) ∈ s.queued → q = p
  apart : ∀ p q i, s.alive p = some i → s.alive q = some i → q = p
  last : ∀ p i, s.latest p = some i → s.alive p = some i ∨ (s.alive p = none ∧ i ∈ s.called)
  known : ∀ p i, s.alive p = some i → s.latest p = some i

omit [DecidableEq κ] in
theorem empty_sound : (empty : Slots κ).Sound := by
  constructor <;> simp [empty]

omit [DecidableEq κ] in
theorem Kept.alive {p : κ} {i : Nat} (kept : Kept s t) (there : t.alive p = some i) :
    s.alive p = some i := by
  obtain ⟨same, _⟩ | ⟨gone, _⟩ := kept p
  · rw [← same, there]
  · rw [gone] at there
    contradiction

omit [DecidableEq κ] in
theorem Sound.forget (sound : s.Sound) (kept : Kept s t) (queued : t.queued = s.queued)
    (called : t.called = s.called) (next : t.next = s.next) : t.Sound where
  once := by
    rw [queued, called]
    exact sound.once
  old := by
    rw [queued, called, next]
    exact sound.old
  fresh p i there := by
    rw [next, called]
    exact sound.fresh p i (kept.alive there)
  mine p i j there member := by
    rw [queued] at member
    exact sound.mine p i j (kept.alive there) member
  placed p q i there member := by
    rw [queued] at member
    exact sound.placed p q i (kept.alive there) member
  apart p q i there other := sound.apart p q i (kept.alive there) (kept.alive other)
  last p i latest := by
    obtain ⟨alive, same⟩ | ⟨_, gone⟩ := kept p
    · rw [alive, called]
      exact sound.last p i (same ▸ latest)
    · rw [gone] at latest
      contradiction
  known p i there := by
    obtain ⟨alive, same⟩ | ⟨gone, _⟩ := kept p
    · rw [same]
      exact sound.known p i (alive ▸ there)
    · rw [gone] at there
      contradiction

theorem updated {f : κ → Option Nat} {p q : κ} {x : Option Nat} {i : Nat}
    (value : Function.update f p x q = some i) : (q = p ∧ x = some i) ∨ (q ≠ p ∧ f q = some i) := by
  by_cases same : q = p
  · subst same
    rw [Function.update_self] at value
    exact .inl ⟨rfl, value⟩
  · rw [Function.update_of_ne same] at value
    exact .inr ⟨same, value⟩

theorem request_alive {p q : κ} {i : Nat} (there : (s.request p).alive q = some i) :
    (q = p ∧ s.next = i) ∨ (q ≠ p ∧ s.alive q = some i) :=
  (updated there).imp_left fun ⟨same, number⟩ => ⟨same, Option.some.inj number⟩

theorem request_latest {p q : κ} {i : Nat} (latest : (s.request p).latest q = some i) :
    (q = p ∧ s.next = i) ∨ (q ≠ p ∧ s.latest q = some i) :=
  (updated latest).imp_left fun ⟨same, number⟩ => ⟨same, Option.some.inj number⟩

omit [DecidableEq κ] in
theorem Sound.next_unused (sound : s.Sound) : s.next ∉ s.queued.map Prod.snd ++ s.called :=
  fun member => lt_irrefl _ (sound.old _ member)

omit [DecidableEq κ] in
theorem Sound.next_unqueued (sound : s.Sound) {q : κ} : (q, s.next) ∉ s.queued := fun member =>
  sound.next_unused (List.mem_append_left _ (List.mem_map_of_mem member))

theorem Sound.request (sound : s.Sound) (p : κ) (quiet : ∀ x ∈ s.queued, x.1 ≠ p) :
    (s.request p).Sound where
  once := sound.once
  old i member := Nat.lt_succ_of_lt (sound.old i member)
  fresh q i there := by
    obtain ⟨_, rfl⟩ | ⟨_, before⟩ := request_alive there
    · exact ⟨Nat.lt_succ_self _,
        fun member => sound.next_unused (List.mem_append_right _ member)⟩
    · obtain ⟨below, uncalled⟩ := sound.fresh q i before
      exact ⟨Nat.lt_succ_of_lt below, uncalled⟩
  mine q i j there member := by
    obtain ⟨rfl, _⟩ | ⟨_, before⟩ := request_alive there
    · exact absurd rfl (quiet _ member)
    · exact sound.mine q i j before member
  placed q r i there member := by
    obtain ⟨_, rfl⟩ | ⟨_, before⟩ := request_alive there
    · exact absurd member sound.next_unqueued
    · exact sound.placed q r i before member
  apart q r i there other := by
    obtain ⟨rfl, rfl⟩ | ⟨_, before⟩ := request_alive there
    · obtain ⟨same, _⟩ | ⟨_, earlier⟩ := request_alive other
      · exact same
      · exact absurd (sound.fresh r _ earlier).1 (lt_irrefl _)
    · obtain ⟨_, rfl⟩ | ⟨_, earlier⟩ := request_alive other
      · exact absurd (sound.fresh q _ before).1 (lt_irrefl _)
      · exact sound.apart q r i before earlier
  last q i latest := by
    obtain ⟨rfl, rfl⟩ | ⟨other, before⟩ := request_latest latest
    · exact .inl (Function.update_self ..)
    · have same : (s.request p).alive q = s.alive q := Function.update_of_ne other ..
      rw [same]
      exact sound.last q i before
  known q i there := by
    obtain ⟨rfl, rfl⟩ | ⟨other, before⟩ := request_alive there
    · exact Function.update_self ..
    · exact (Function.update_of_ne other ..).trans (sound.known q i before)

omit [DecidableEq κ] in
theorem Sound.post (sound : s.Sound) {p : κ} {i : Nat} (there : s.alive p = some i)
    (silent : ∀ x ∈ s.queued, x.2 ≠ i) : (s.post p i).Sound := by
  have split : ∀ x ∈ (s.post p i).queued, x ∈ s.queued ∨ x = (p, i) := by
    intro x member
    obtain before | added := List.mem_append.mp member
    · exact .inl before
    · exact .inr (List.mem_singleton.mp added)
  have numbers : ((s.post p i).queued.map Prod.snd ++ s.called).Perm
      (i :: (s.queued.map Prod.snd ++ s.called)) := by
    rw [Slots.post, List.map_append, List.append_assoc]
    exact List.perm_middle
  obtain ⟨below, uncalled⟩ := sound.fresh p i there
  have unused : i ∉ s.queued.map Prod.snd ++ s.called := by
    intro member
    obtain queued | called := List.mem_append.mp member
    · obtain ⟨x, member, same⟩ := List.mem_map.mp queued
      exact silent x member same
    · exact uncalled called
  constructor
  · exact numbers.nodup_iff.mpr (List.nodup_cons.mpr ⟨unused, sound.once⟩)
  · intro j member
    obtain rfl | before := List.mem_cons.mp (numbers.mem_iff.mp member)
    · exact below
    · exact sound.old j before
  · exact sound.fresh
  · intro q j k alive member
    obtain before | added := split _ member
    · exact sound.mine q j k alive before
    · obtain ⟨rfl, rfl⟩ := Prod.mk.inj added
      exact Option.some.inj (there.symm.trans alive)
  · intro q r j alive member
    obtain before | added := split _ member
    · exact sound.placed q r j alive before
    · obtain ⟨rfl, rfl⟩ := Prod.mk.inj added
      exact sound.apart q r j alive there
  · exact sound.apart
  · exact sound.last
  · exact sound.known

theorem deliver_alive {p q : κ} {i j : Nat} (there : (s.deliver p i).alive q = some j) :
    q ≠ p ∧ s.alive q = some j := by
  obtain ⟨_, gone⟩ | before := updated there
  · contradiction
  · exact before

theorem Sound.deliver (sound : s.Sound) {p : κ} {i : Nat} {rest : List (κ × Nat)}
    (first : s.queued = (p, i) :: rest) : (s.deliver p i).Sound := by
  have tail : (s.deliver p i).queued = rest := by rw [Slots.deliver, first, List.tail_cons]
  have later : ∀ x ∈ (s.deliver p i).queued, x ∈ s.queued := by
    intro x member
    rw [tail] at member
    rw [first]
    exact List.mem_cons_of_mem _ member
  have numbers : ((s.deliver p i).queued.map Prod.snd ++ (s.deliver p i).called).Perm
      (s.queued.map Prod.snd ++ s.called) := by
    rw [tail, first, List.map_cons]
    change (rest.map Prod.snd ++ (s.called ++ [i])).Perm _
    rw [← List.append_assoc]
    exact (List.perm_append_singleton ..)
  constructor
  · exact numbers.nodup_iff.mpr sound.once
  · exact fun j member => sound.old j (numbers.mem_iff.mp member)
  · intro q j there
    obtain ⟨other, before⟩ := deliver_alive there
    obtain ⟨below, uncalled⟩ := sound.fresh q j before
    refine ⟨below, fun member => ?_⟩
    obtain called | now := List.mem_append.mp member
    · exact uncalled called
    · obtain rfl := List.mem_singleton.mp now
      exact other (sound.placed q p j before (by rw [first]; exact List.mem_cons_self)).symm
  · intro q j k there member
    exact sound.mine q j k (deliver_alive there).2 (later _ member)
  · intro q r j there member
    exact sound.placed q r j (deliver_alive there).2 (later _ member)
  · intro q r j there other
    exact sound.apart q r j (deliver_alive there).2 (deliver_alive other).2
  · intro q j latest
    obtain alive | ⟨gone, called⟩ := sound.last q j latest
    · by_cases same : q = p
      · subst same
        have own : i = j := sound.mine q j i alive (by rw [first]; exact List.mem_cons_self)
        subst own
        exact .inr ⟨Function.update_self .., List.mem_append_right _ (List.mem_singleton_self _)⟩
      · exact .inl ((Function.update_of_ne same ..).trans alive)
    · refine .inr ⟨?_, List.mem_append_left _ called⟩
      by_cases same : q = p
      · subst same
        exact Function.update_self ..
      · exact (Function.update_of_ne same ..).trans gone
  · intro q j there
    exact sound.known q j (deliver_alive there).2

omit [DecidableEq κ] in
theorem Sound.discard (sound : s.Sound) {p : κ} {i : Nat} {rest : List (κ × Nat)}
    (first : s.queued = (p, i) :: rest) : Sound { s with queued := rest } := by
  have later : ∀ x ∈ rest, x ∈ s.queued := by
    intro x member
    rw [first]
    exact List.mem_cons_of_mem _ member
  have sub : (rest.map Prod.snd ++ s.called).Sublist (s.queued.map Prod.snd ++ s.called) := by
    rw [first, List.map_cons, List.cons_append]
    exact List.sublist_cons_self ..
  constructor
  · exact sound.once.sublist sub
  · exact fun j member => sound.old j (sub.subset member)
  · exact sound.fresh
  · exact fun q j k there member => sound.mine q j k there (later _ member)
  · exact fun q r j there member => sound.placed q r j there (later _ member)
  · exact sound.apart
  · exact sound.last
  · exact sound.known

theorem Sound.step (sound : s.Sound) (taken : Step s t) : t.Sound := by
  cases taken with
  | forget kept queued called next => exact sound.forget kept queued called next
  | request p quiet => exact sound.request p quiet
  | post p i there silent => exact sound.post there silent
  | deliver p i rest first => exact sound.deliver first
  | discard p i rest first => exact sound.discard first

theorem Sound.steps (sound : s.Sound) (taken : Relation.ReflTransGen Step s t) : t.Sound := by
  induction taken with
  | refl => exact sound
  | tail _ last ih => exact ih.step last

omit [DecidableEq κ] in
/-- No completion is delivered twice, and the last worker of a slot is there until its own
completion is delivered. -/
theorem Sound.served (sound : s.Sound) :
    s.called.Nodup ∧ ∀ p i, s.latest p = some i → s.alive p = some i ∨ i ∈ s.called := by
  constructor
  · exact sound.once.sublist (List.sublist_append_right ..)
  · intro p i latest
    obtain alive | ⟨_, called⟩ := sound.last p i latest
    · exact .inl alive
    · exact .inr called

end Slots
