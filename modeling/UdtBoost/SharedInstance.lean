import UdtBoost.Holdings
import UdtBoost.Trace

/-! The one instance of the engine, asked for and released by any number of threads. A thread makes
an instance before it knows whether its own is taken, and compares addresses that may have been used
before. -/
namespace UdtBoost

/-- Where a thread is in `get_instance` or `release_instance`. -/
inductive SingletonPc where
  | idle
  /-- `get_instance` has read `s_instance`. -/
  | read (seen : Option Nat)
  | made (own : Nat)
  /-- The exchange failed: someone has initiated `s_instance`. -/
  | discarding (own : Nat)
  | returning
  /-- `release_instance` has read `s_instance`. -/
  | captured (seen : Option Nat)
  /-- The exchange succeeded. -/
  | deleting (own : Nat)
deriving DecidableEq

/-- The object that only this thread knows. -/
def SingletonPc.held : SingletonPc → Option Nat
  | .made own | .discarding own | .deleting own => some own
  | .idle | .read _ | .returning | .captured _ => none

/-- The thread is right to take `s_instance` for initiated. -/
def SingletonPc.Ready (shared : Option Nat) : SingletonPc → Prop
  | .read (some _) | .discarding _ | .returning => shared ≠ none
  | .captured _ | .deleting _ => False
  | .idle | .read none | .made _ => True

/-- What the threads share. An object is its address. -/
structure SingletonClass (ι : Type) where
  sInstance : Option Nat
  pcs : ι → SingletonPc
  live : List Nat
  /-- What was deleted, and whether it was there. -/
  deleted : List (Nat × Bool)
  /-- What `get_instance` returned. -/
  returned : List (Option Nat)

namespace SingletonClass

variable {ι : Type}

inductive Event (ι : Type) where
  | getInstance (t : ι)
  | releaseInstance (t : ι)
  /-- The thread's next access of what is shared. Where it calls `new`, it gets this address. -/
  | next (t : ι) (address : Nat)

def init : SingletonClass ι := ⟨none, fun _ => .idle, [], [], []⟩

/-- `s_instance` and the threads as the places of the objects. -/
def holdings (s : SingletonClass ι) : Holdings (Option ι) Nat where
  content
    | none => s.sInstance
    | some t => (s.pcs t).held
  live := s.live

theorem init_sound : (init : SingletonClass ι).holdings.Sound where
  nodup := List.nodup_nil
  held a := by
    refine ⟨fun member => absurd member List.not_mem_nil, fun ⟨x, here⟩ => ?_⟩
    cases x <;> exact absurd here (by simp [init, holdings, SingletonPc.held])
  apart x y a first := by
    cases x <;> exact absurd first (by simp [init, holdings, SingletonPc.held])

/-- Where nothing is released, an instance that was seen stays. -/
structure Kept (s : SingletonClass ι) : Prop where
  ready : ∀ t, (s.pcs t).Ready s.sInstance
  returned : ∀ r ∈ s.returned, r = s.sInstance ∧ r ≠ none

theorem Kept.publish {s : SingletonClass ι} (kept : s.Kept) (empty : s.sInstance = none) (p : Nat) :
    ({ s with sInstance := some p } : SingletonClass ι).Kept where
  ready u := by
    have before := kept.ready u
    rw [empty] at before
    change (s.pcs u).Ready (some p)
    generalize s.pcs u = pc at before
    cases pc with
    | captured | deleting => exact absurd before not_false
    | idle | made | discarding | returning => simp [SingletonPc.Ready]
    | read seen => cases seen <;> simp [SingletonPc.Ready]
  returned r member := by
    obtain ⟨same, some_⟩ := kept.returned r member
    exact absurd (same.trans empty) some_

variable [DecidableEq ι]

def goto (s : SingletonClass ι) (t : ι) (pc : SingletonPc) : SingletonClass ι :=
  { s with pcs := Function.update s.pcs t pc }

def delete (s : SingletonClass ι) (p : Nat) : SingletonClass ι :=
  { s with live := s.live.erase p, deleted := s.deleted ++ [(p, decide (p ∈ s.live))] }

def next (s : SingletonClass ι) (t : ι) (address : Nat) : SingletonClass ι :=
  match s.pcs t with
  | .idle => s
  | .read none => { s with live := address :: s.live }.goto t (.made address)
  | .read (some _) => s.goto t .returning
  | .made own =>
      if s.sInstance = none then { s with sInstance := some own }.goto t .returning
      else s.goto t (.discarding own)
  | .discarding own => (s.delete own).goto t .returning
  | .returning => { s with returned := s.returned ++ [s.sInstance] }.goto t .idle
  | .captured none => s.goto t .idle
  | .captured (some seen) =>
      if s.sInstance = some seen then { s with sInstance := none }.goto t (.deleting seen)
      else s.goto t .idle
  | .deleting own => (s.delete own).goto t .idle

def step (s : SingletonClass ι) : Event ι → SingletonClass ι
  | .getInstance t => if s.pcs t = .idle then s.goto t (.read s.sInstance) else s
  | .releaseInstance t => if s.pcs t = .idle then s.goto t (.captured s.sInstance) else s
  | .next t address => s.next t address

def run (s : SingletonClass ι) (es : List (Event ι)) : SingletonClass ι := es.foldl step s

/-- `new` never returns an address that is in use. -/
def Proper (s : SingletonClass ι) : Event ι → Prop
  | .next _ address => address ∉ s.live
  | _ => True

instance (s : SingletonClass ι) : (e : Event ι) → Decidable (s.Proper e)
  | .next _ address => inferInstanceAs (Decidable (address ∉ s.live))
  | .getInstance _ | .releaseInstance _ => .isTrue trivial

variable {s : SingletonClass ι} {t : ι} {pc : SingletonPc} {e : Event ι}

theorem goto_holdings (s : SingletonClass ι) (t : ι) (pc : SingletonPc) :
    (s.goto t pc).holdings = ⟨Function.update s.holdings.content (some t) pc.held, s.live⟩ := by
  refine congrArg (Holdings.mk · s.live) (funext fun x => ?_)
  cases x with
  | none => rw [Function.update_of_ne (by simp)]; rfl
  | some u =>
      change (Function.update s.pcs t pc u).held = _
      by_cases same : u = t
      · subst same
        rw [Function.update_self, Function.update_self]
      · rw [Function.update_of_ne same, Function.update_of_ne (by simpa using same)]
        rfl

/-- A thread that goes on with what it has. -/
theorem goto_stay (same : pc.held = (s.pcs t).held) : s.holdings.Step (s.goto t pc).holdings := by
  have update : Function.update s.holdings.content (some t) pc.held = s.holdings.content := by
    rw [same]
    exact Function.update_eq_self (some t) s.holdings.content
  rw [goto_holdings, update]
  exact .stay

/-- The exchange of `s_instance`. -/
theorem publish_holdings (s : SingletonClass ι) (p : Option Nat) (t : ι) (pc : SingletonPc) :
    ({ s with sInstance := p }.goto t pc).holdings =
      ⟨Function.update (Function.update s.holdings.content none p) (some t) pc.held, s.live⟩ := by
  have shared : ({ s with sInstance := p } : SingletonClass ι).holdings.content =
      Function.update s.holdings.content none p := by
    funext x
    cases x with
    | none => exact (Function.update_self none p s.holdings.content).symm
    | some u => rw [Function.update_of_ne (by simp)]; rfl
  rw [goto_holdings, shared]

/-- Whatever a thread does, an object is made, passed on or deleted, or nothing happens to it. -/
theorem step_holdings (proper : s.Proper e) : s.holdings.Step (s.step e).holdings := by
  have quiet : ∀ {t : ι} {pc : SingletonPc}, s.pcs t = .idle → pc.held = none →
      s.holdings.Step (s.goto t pc).holdings := by
    intro t pc idle none_
    refine goto_stay ?_
    rw [none_, idle]
    rfl
  cases e with
  | getInstance t | releaseInstance t =>
      rw [step]
      split
      · exact quiet ‹_› rfl
      · exact .stay
  | next t address =>
      have here : s.holdings.content (some t) = (s.pcs t).held := rfl
      rw [step, next]
      cases at_ : s.pcs t with
      | idle => exact .stay
      | read seen =>
          cases seen with
          | none =>
              have step := Holdings.Step.make (some t) address (here.trans (by rw [at_]; rfl)) proper
              dsimp only
              rw [goto_holdings]
              exact step
          | some p => exact goto_stay (by rw [at_]; rfl)
      | made own =>
          dsimp only
          split
          · next empty =>
              have step := Holdings.Step.move (h := s.holdings) (some t) none empty
              rw [Holdings.move, here, at_, Function.update_comm (by simp)] at step
              rw [publish_holdings]
              exact step
          · exact goto_stay (by rw [at_]; rfl)
      | discarding own =>
          have step := Holdings.Step.drop (h := s.holdings) (some t) own (here.trans (by rw [at_]; rfl))
          dsimp only
          rw [goto_holdings]
          exact step
      | returning =>
          have step : s.holdings.Step (s.goto t .idle).holdings := goto_stay (by rw [at_]; rfl)
          exact step
      | captured seen =>
          cases seen with
          | none => exact goto_stay (by rw [at_]; rfl)
          | some p =>
              dsimp only
              split
              · next shared =>
                  have step := Holdings.Step.move (h := s.holdings) none (some t)
                    (here.trans (by rw [at_]; rfl))
                  rw [publish_holdings]
                  rw [Holdings.move, show s.holdings.content none = some p from shared] at step
                  exact step
              · exact goto_stay (by rw [at_]; rfl)
      | deleting own =>
          have step := Holdings.Step.drop (h := s.holdings) (some t) own (here.trans (by rw [at_]; rfl))
          dsimp only
          rw [goto_holdings]
          exact step

/-- What a thread deletes is there. -/
theorem step_deleted (sound : s.holdings.Sound) (e : Event ι) (there : ∀ x ∈ s.deleted, x.2 = true) :
    ∀ x ∈ (s.step e).deleted, x.2 = true := by
  have own : ∀ {t : ι} {p : Nat}, (s.pcs t).held = some p →
      ∀ x ∈ s.deleted ++ [(p, decide (p ∈ s.live))], x.2 = true := by
    intro t p held
    refine List.forall_mem_append.mpr ⟨there, List.forall_mem_singleton.mpr ?_⟩
    exact decide_eq_true ((sound.held p).mpr ⟨some t, held⟩)
  cases e with
  | getInstance t | releaseInstance t =>
      rw [step]
      split <;> exact there
  | next t address =>
      rw [step, next]
      cases at_ : s.pcs t with
      | discarding p | deleting p => exact own (by rw [at_]; rfl)
      | made p =>
          dsimp only
          split <;> exact there
      | read seen => cases seen <;> exact there
      | captured seen =>
          cases seen with
          | none => exact there
          | some p =>
              dsimp only
              split <;> exact there
      | idle | returning => exact there

variable {es : List (Event ι)}

theorem run_sound (proper : Trace.Meets step Proper (init : SingletonClass ι) es) :
    (init.run es).holdings.Sound ∧ ∀ x ∈ (init.run es).deleted, x.2 = true :=
  proper.invariant (I := fun s => s.holdings.Sound ∧ ∀ x ∈ s.deleted, x.2 = true)
    ⟨init_sound, fun _ member => absurd member List.not_mem_nil⟩
    fun _ e ⟨sound, there⟩ ok => ⟨sound.step (step_holdings ok), step_deleted sound e there⟩

/-- No instance is deleted twice and none is lost: each is in one place, and the published one is all
that is left when no thread is inside a call. -/
theorem instances_deleted_once (proper : Trace.Meets step Proper (init : SingletonClass ι) es) :
    (∀ x ∈ (init.run es).deleted, x.2 = true) ∧
      (∀ p ∈ (init.run es).live, (init.run es).sInstance = some p ∨
        ∃ t, ((init.run es).pcs t).held = some p) ∧
      (∀ t p, ((init.run es).pcs t).held = some p → (init.run es).sInstance ≠ some p ∧
        ∀ u, ((init.run es).pcs u).held = some p → u = t) ∧
      ((∀ t, (init.run es).pcs t = .idle) → (init.run es).live = (init.run es).sInstance.toList) := by
  obtain ⟨sound, there⟩ := run_sound proper
  refine ⟨there, fun p member => ?_, fun t p holds => ⟨fun published => ?_, fun u other => ?_⟩,
    fun idle => ?_⟩
  · obtain ⟨x, here⟩ := (sound.held p).mp member
    cases x with
    | none => exact .inl here
    | some t => exact .inr ⟨t, here⟩
  · exact absurd (sound.apart none (some t) p published holds) (Option.some_ne_none t).symm
  · exact Option.some.inj (sound.apart (some u) (some t) p other holds)
  · refine sound.live_of_only (x := none) fun x other => ?_
    cases x with
    | none => exact absurd rfl other
    | some t =>
        change ((init.run es).pcs t).held = none
        rw [idle t]
        rfl

/-- Two threads ask at once, and both make an instance. -/
def race : List (Event (Fin 2)) :=
  [.getInstance 0, .getInstance 1, .next 0 100, .next 1 200, .next 1 0, .next 0 0, .next 0 0, .next 1 0,
    .next 0 0]

theorem instances_deleted_once_race :
    (init.run race).live = [200] ∧ (init.run race).deleted = [(100, true)] := by
  have proper : Trace.Meets step Proper (init : SingletonClass (Fin 2)) race := by decide
  have idle : ∀ t, (init.run race).pcs t = .idle := by decide
  refine ⟨?_, by decide⟩
  rw [(instances_deleted_once proper).2.2.2 idle]
  decide

theorem Kept.goto (kept : s.Kept) (t : ι) (pc : SingletonPc) (ready : pc.Ready s.sInstance) :
    (s.goto t pc).Kept where
  ready u := by
    change (Function.update s.pcs t pc u).Ready s.sInstance
    by_cases same : u = t
    · subst same
      rw [Function.update_self]
      exact ready
    · rw [Function.update_of_ne same]
      exact kept.ready u
  returned := kept.returned

/-- No thread releases the instance. -/
def Event.Asks : Event ι → Prop
  | .releaseInstance _ => False
  | _ => True

instance : (e : Event ι) → Decidable e.Asks
  | .releaseInstance _ => .isFalse not_false
  | .getInstance _ | .next _ _ => .isTrue trivial

theorem Kept.step (kept : s.Kept) (asks : e.Asks) : (s.step e).Kept := by
  cases e with
  | releaseInstance t => exact absurd asks not_false
  | getInstance t =>
      rw [SingletonClass.step]
      split
      · refine kept.goto t _ ?_
        cases s.sInstance <;> simp [SingletonPc.Ready]
      · exact kept
  | next t address =>
      have here := kept.ready t
      rw [SingletonClass.step, next]
      cases at_ : s.pcs t with
      | idle => exact kept
      | read seen =>
          rw [at_] at here
          cases seen with
          | none =>
              have made : Kept { s with live := address :: s.live } := ⟨kept.ready, kept.returned⟩
              exact made.goto t (.made address) trivial
          | some p => exact kept.goto t .returning here
      | made own =>
          dsimp only
          split
          · next empty => exact (kept.publish empty own).goto t .returning (Option.some_ne_none own)
          · next taken => exact kept.goto t (.discarding own) taken
      | discarding own =>
          rw [at_] at here
          have gone : Kept (s.delete own) := ⟨kept.ready, kept.returned⟩
          exact gone.goto t .returning here
      | returning =>
          rw [at_] at here
          have told : Kept { s with returned := s.returned ++ [s.sInstance] } :=
            ⟨kept.ready, List.forall_mem_append.mpr
              ⟨kept.returned, List.forall_mem_singleton.mpr ⟨rfl, here⟩⟩⟩
          exact told.goto t .idle trivial
      | captured | deleting =>
          rw [at_] at here
          exact absurd here not_false

theorem Kept.run (kept : s.Kept) (asks : ∀ e ∈ es, e.Asks) : (s.run es).Kept := by
  induction es generalizing s with
  | nil => exact kept
  | cons e es ih =>
      obtain ⟨first, later⟩ := List.forall_mem_cons.mp asks
      exact ih (kept.step first) later

theorem get_instance_agrees (proper : Trace.Meets step Proper (init : SingletonClass ι) es)
    (asks : ∀ e ∈ es, e.Asks) : ∀ r ∈ (init.run es).returned,
      ∃ p, r = some p ∧ (init.run es).sInstance = some p ∧ p ∈ (init.run es).live := by
  have begun : (init : SingletonClass ι).Kept :=
    ⟨fun _ => trivial, fun r member => absurd member List.not_mem_nil⟩
  have kept : (init.run es).Kept := begun.run asks
  intro r member
  obtain ⟨same, some_⟩ := kept.returned r member
  obtain ⟨p, rfl⟩ := Option.ne_none_iff_exists'.mp some_
  have shared : (init.run es).holdings.content none = some p := same.symm
  exact ⟨p, rfl, same.symm, ((run_sound proper).1.held p).mpr ⟨none, shared⟩⟩

theorem get_instance_agrees_race :
    (init.run race).returned = [some 200, some 200] ∧ 200 ∈ (init.run race).live := by
  have returned : (init.run race).returned = [some 200, some 200] := by decide
  have told : some 200 ∈ (init.run race).returned := by
    rw [returned]
    exact List.mem_cons_self
  obtain ⟨p, same, -, live⟩ := get_instance_agrees (by decide) (by decide) (some 200) told
  obtain rfl := Option.some.inj same
  exact ⟨returned, live⟩

/-- What is released meanwhile is not asked for again: NULL is returned. -/
example : (init.run [.getInstance (0 : Fin 2), .next 0 100, .next 0 0, .releaseInstance 1, .next 1 0,
    .next 0 0]).returned = [none] := by decide

end SingletonClass

end UdtBoost
