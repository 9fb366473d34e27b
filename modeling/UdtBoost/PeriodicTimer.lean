import Mathlib

/-! The periodic timer behind the slow and the fast timeout. A wait that has expired can no longer be
cancelled, so its handler runs even after `stop` or another `start`, and after the timer is gone. -/
namespace UdtBoost

structure Timer where
  milliSec : Int
  /-- `m_timer_proc`; without one the virtual `timer_proc` is called. -/
  timerProc : Option Nat
  stopping : Bool
  /-- The object of `m_tracker` exists: the timer is not destroyed. -/
  tracked : Bool
  /-- Waits on `m_timer`. -/
  waits : Nat
  /-- Handlers that the `io_service` will call, and whether they were aborted. -/
  queue : List Bool
  /-- How often `start` was called. -/
  starts : Nat
  /-- The procedures that were called. -/
  ran : List (Option Nat)
deriving DecidableEq

namespace Timer

/-- What the owner of a timer does. -/
inductive Call where
  | start (milliSec : Int) (timerProc : Option Nat)
  | stop
  | destroy
deriving DecidableEq

inductive Event where
  | call (c : Call)
  /-- The time of the waits has come. -/
  | expire
  /-- The next handler runs. A procedure that it calls makes these calls. -/
  | handle (calls : List Call)
deriving DecidableEq

/-- `m_stopping` is not initialised. -/
def init (stopping : Bool) : Timer := ⟨0, none, stopping, true, 0, [], 0, []⟩

/-- `deadline_timer::cancel`. -/
def cancelWaits (s : Timer) : Timer :=
  { s with waits := 0, queue := s.queue ++ List.replicate s.waits true }

/-- `expires_from_now` cancels what waits. -/
def asyncWait (s : Timer) : Timer :=
  let s := s.cancelWaits
  { s with waits := s.waits + 1 }

def start (s : Timer) (milliSec : Int) (timerProc : Option Nat) : Timer :=
  { s with stopping := false, milliSec, timerProc, starts := s.starts + 1 }.asyncWait

def stop (s : Timer) : Timer :=
  if s.stopping then s else { s with stopping := true }.cancelWaits

def destroy (s : Timer) : Timer := { s.stop.cancelWaits with tracked := false }

def call (s : Timer) : Call → Timer
  | .start milliSec timerProc => s.start milliSec timerProc
  | .stop => s.stop
  | .destroy => s.destroy

def calls (s : Timer) (cs : List Call) : Timer := cs.foldl call s

/-- The procedure is called. -/
def entered (s : Timer) : Timer := { s with ran := s.ran ++ [s.timerProc] }

def handleTimeout (s : Timer) (aborted : Bool) (cs : List Call) : Timer :=
  if s.tracked = false then s
  else if aborted = false ∧ s.stopping = false then
    let s := s.entered.calls cs
    if s.tracked = true then s.asyncWait else s
  else s

def step (s : Timer) : Event → Timer
  | .call c => s.call c
  | .expire => { s with waits := 0, queue := s.queue ++ List.replicate s.waits false }
  | .handle cs =>
      match s.queue with
      | [] => s
      | aborted :: rest => { s with queue := rest }.handleTimeout aborted cs

def run (s : Timer) (es : List Event) : Timer := es.foldl step s

/-- Waits, and handlers whose wait has expired. -/
def due (s : Timer) : Nat := s.waits + s.queue.count false

/-- A timer that runs has a wait or a handler that will start the next, and no more of them than it was
started. While a procedure runs, its handler counts too. -/
structure Ticking (running : Nat) (s : Timer) : Prop where
  one : s.waits ≤ 1
  most : s.due + running ≤ s.starts
  least : s.tracked = true → s.stopping = false → s.starts ≠ 0 → 1 ≤ s.due + running

variable {s : Timer} {es : List Event}

theorem count_cancelWaits (s : Timer) : s.cancelWaits.queue.count false = s.queue.count false := by
  rw [cancelWaits, List.count_append, List.count_replicate]
  rfl

theorem due_cancelWaits (s : Timer) : s.cancelWaits.due = s.queue.count false := by
  rw [due, count_cancelWaits]
  exact Nat.zero_add _

theorem due_asyncWait (s : Timer) : s.asyncWait.due = s.queue.count false + 1 := by
  have same := s.count_cancelWaits
  change 0 + 1 + s.cancelWaits.queue.count false = _
  omega

variable {k : Nat}

/-- The wait for the next period takes the place of the one before. -/
theorem Ticking.asyncWait (most : s.queue.count false + 1 + k ≤ s.starts) : s.asyncWait.Ticking k where
  one := Nat.le_refl 1
  most := by
    rw [due_asyncWait]
    exact most
  least _ _ _ := by
    rw [due_asyncWait]
    omega

theorem Ticking.start (ticking : s.Ticking k) (milliSec : Int) (timerProc : Option Nat) :
    (s.start milliSec timerProc).Ticking k := by
  refine Ticking.asyncWait ?_
  have most := ticking.most
  unfold due at most
  change s.queue.count false + 1 + k ≤ s.starts + 1
  omega

/-- Where the timer does not run, nothing has to be due. -/
theorem Ticking.idle {running : Nat} (ticking : s.Ticking k) (fewer : running ≤ k)
    (off : s.tracked = true → s.stopping = true) : s.Ticking running where
  one := ticking.one
  most := (Nat.add_le_add_left fewer _).trans ticking.most
  least here run := absurd ((off here).symm.trans run) (by decide)

theorem Ticking.cancelWaits (ticking : s.Ticking k) (off : s.tracked = true → s.stopping = true) :
    s.cancelWaits.Ticking k where
  one := Nat.zero_le 1
  most := by
    have most := ticking.most
    rw [due_cancelWaits]
    unfold due at most
    change s.queue.count false + k ≤ s.starts
    omega
  least here run := by
    have stopping : s.stopping = true := off here
    exact absurd (stopping.symm.trans run) (by decide)

theorem stop_stopping (s : Timer) : s.stop.stopping = true := by
  unfold stop
  split
  · assumption
  · rfl

theorem Ticking.stop (ticking : s.Ticking k) : s.stop.Ticking k := by
  unfold Timer.stop
  split
  · exact ticking
  · have off : Ticking k { s with stopping := true } :=
      ⟨ticking.one, ticking.most, fun _ run => by contradiction⟩
    exact off.cancelWaits fun _ => rfl

theorem Ticking.call (ticking : s.Ticking k) (c : Call) : (s.call c).Ticking k := by
  cases c with
  | start milliSec timerProc => exact ticking.start milliSec timerProc
  | stop => exact ticking.stop
  | destroy =>
      have cancelled := ticking.stop.cancelWaits fun _ => s.stop_stopping
      exact ⟨cancelled.one, cancelled.most, fun there => by contradiction⟩

theorem Ticking.calls (ticking : s.Ticking k) (cs : List Call) : (s.calls cs).Ticking k := by
  induction cs generalizing s with
  | nil => exact ticking
  | cons c cs ih => exact ih (ticking.call c)

/-- The handler of an expired wait has been taken from the queue. -/
theorem Ticking.handled (ticking : s.Ticking 1) (cs : List Call) :
    (s.handleTimeout false cs).Ticking 0 := by
  unfold handleTimeout
  split
  · next gone => exact ticking.idle (Nat.zero_le 1) fun here => absurd (gone.symm.trans here) (by decide)
  split
  · have entered : s.entered.Ticking 1 := ⟨ticking.one, ticking.most, ticking.least⟩
    have after := entered.calls cs
    dsimp only
    split
    · refine Ticking.asyncWait ?_
      have most := after.most
      unfold due at most
      omega
    · next gone => exact after.idle (Nat.zero_le 1) fun here => absurd here gone
  · next off =>
      refine ticking.idle (Nat.zero_le 1) fun _ => ?_
      simpa using off

theorem Ticking.step (ticking : s.Ticking 0) (e : Event) : (s.step e).Ticking 0 := by
  cases e with
  | call c => exact ticking.call c
  | expire =>
      have all : s.queue.count false + s.waits = s.due := Nat.add_comm _ _
      have same : (s.step .expire).due = s.due := by
        rw [← all]
        change 0 + (s.queue ++ List.replicate s.waits false).count false = _
        rw [List.count_append, List.count_replicate_self, Nat.zero_add]
      exact ⟨Nat.zero_le 1, same ▸ ticking.most,
        fun here run some_ => same ▸ ticking.least here run some_⟩
  | handle cs =>
      rw [Timer.step]
      cases at_ : s.queue with
      | nil => exact ticking
      | cons aborted rest =>
          cases aborted with
          | false =>
              have fewer : s.due = (Timer.due { s with queue := rest }) + 1 := by
                unfold due
                rw [at_, List.count_cons_self]
                rfl
              have most := ticking.most
              have taken : Ticking 1 { s with queue := rest } :=
                ⟨ticking.one, fewer ▸ most, fun _ _ _ => Nat.le_add_left 1 _⟩
              exact taken.handled cs
          | true =>
              have same : s.due = Timer.due { s with queue := rest } := by
                unfold due
                rw [at_, List.count_cons_of_ne (by decide)]
              have taken : Ticking 0 { s with queue := rest } :=
                ⟨ticking.one, same ▸ ticking.most,
                  fun here run some_ => same ▸ ticking.least here run some_⟩
              dsimp only
              rw [handleTimeout, if_neg (by simp : ¬ (true = false ∧ _)), ite_self]
              exact taken

theorem Ticking.run (ticking : s.Ticking 0) (es : List Event) : (s.run es).Ticking 0 := by
  induction es generalizing s with
  | nil => exact ticking
  | cons e es ih => exact ih (ticking.step e)

/-- However often a timer is started, stopped and started again, even by the procedure it calls: as long
as it runs the next call is under way, and a timer that was started once has no second one. -/
theorem timer_keeps_ticking (stopping : Bool) (es : List Event) :
    ((init stopping).run es).waits ≤ 1 ∧
      ((init stopping).run es).due ≤ ((init stopping).run es).starts ∧
      (((init stopping).run es).tracked = true → ((init stopping).run es).stopping = false →
        ((init stopping).run es).starts ≠ 0 → 1 ≤ ((init stopping).run es).due) := by
  have begun : (init stopping).Ticking 0 :=
    ⟨Nat.zero_le 1, Nat.le_refl 0, fun _ _ none => absurd rfl none⟩
  have ticking : ((init stopping).run es).Ticking 0 := begun.run es
  exact ⟨ticking.one, ticking.most, ticking.least⟩

/-- The timer calls no procedure. -/
def Silent (s : Timer) : Prop := s.tracked = true → s.stopping = true

def Event.Starts : Event → Prop
  | .call (.start _ _) => True
  | _ => False

instance : (e : Event) → Decidable e.Starts
  | .call (.start _ _) => .isTrue trivial
  | .call .stop | .call .destroy | .expire | .handle _ => .isFalse not_false

theorem stop_ran (s : Timer) : s.stop.ran = s.ran := by
  unfold stop
  split <;> rfl

theorem Silent.step (silent : s.Silent) {e : Event} (still : ¬ e.Starts) :
    (s.step e).Silent ∧ (s.step e).ran = s.ran := by
  cases e with
  | call c =>
      cases c with
      | start => exact absurd trivial still
      | stop => exact ⟨fun _ => s.stop_stopping, s.stop_ran⟩
      | destroy => exact ⟨fun here => by contradiction, s.stop_ran⟩
  | expire => exact ⟨silent, rfl⟩
  | handle cs =>
      rw [Timer.step]
      split
      · exact ⟨silent, rfl⟩
      · next aborted rest _ =>
          have ignored :
              Timer.handleTimeout { s with queue := rest } aborted cs = { s with queue := rest } := by
            unfold handleTimeout
            split
            · rfl
            · next here =>
                have off : s.stopping = true := silent (by simpa using here)
                rw [if_neg (by simp [off])]
          rw [ignored]
          exact ⟨silent, rfl⟩

theorem Silent.run (silent : s.Silent) (still : ∀ e ∈ es, ¬ e.Starts) : (s.run es).ran = s.ran := by
  induction es generalizing s with
  | nil => rfl
  | cons e es ih =>
      obtain ⟨first, later⟩ := List.forall_mem_cons.mp still
      obtain ⟨next, same⟩ := silent.step first
      exact (ih next later).trans same

/-- After `stop` and after its destruction a timer calls nothing until it is started again, whatever
handlers are still queued. -/
theorem stopped_timer_silent (stopping : Bool) (before after : List Event) {c : Call}
    (ends : c = .stop ∨ c = .destroy) (still : ∀ e ∈ after, ¬ e.Starts) :
    ((init stopping).run (before ++ .call c :: after)).ran = ((init stopping).run before).ran := by
  have split : (init stopping).run (before ++ .call c :: after) =
      (((init stopping).run before).call c).run after := by
    unfold run
    rw [List.foldl_append]
    rfl
  rw [split]
  generalize (init stopping).run before = s
  have ended : (s.call c).Silent ∧ (s.call c).ran = s.ran := by
    rcases ends with rfl | rfl
    · exact ⟨fun _ => s.stop_stopping, s.stop_ran⟩
    · exact ⟨fun here => by contradiction, s.stop_ran⟩
  obtain ⟨silent, ran⟩ := ended
  exact (silent.run still).trans ran

/-- The handler of an expired wait runs after `stop`. -/
theorem stopped_timer_silent_expired :
    ((init true).run ([.call (.start 500 none), .expire] ++ .call .stop :: [.handle []])).ran = [] :=
  (stopped_timer_silent true [.call (.start 500 none), .expire] [.handle []] (.inl rfl) (by decide)).trans
    (by decide)

/-- A procedure that stops its timer leaves one wait behind, which calls nothing. -/
example : ((init true).run [.call (.start 500 none), .expire, .handle [.stop]]).waits = 1 := by decide

end Timer

end UdtBoost
