import UdtBoost.Engine
import UdtBoost.Trace

/-! Tasks and dead sockets. Every task but `async_hole_punch_` stops when its pointer is no member
of the set, so that no other task touches a deleted socket or has an effect on anything else. The
test is on the address: a task that still waits when `create_` is given its socket's address again
finds a member. -/
namespace UdtBoost

/-- The pointer a task is called with. -/
def EngineTask.pointer {Ep : Type} : EngineTask Ep → Option Nat
  | .request (.create _ _) | .request .clear => none
  | .request (.close p) | .request (.asyncPubAddr p _ _ _) | .request (.asyncHolePunch p _ _)
  | .request (.asyncConnect p _) | .request (.asyncAccept p _) | .request (.asyncSend p _)
  | .request (.asyncReceive p _) | .request (.asyncShutdown p _) | .request (.cancel p)
  | .request (.setsockopt p _ _) | .request (.getsockopt p _) | .request (.pendingData p)
  | .handleAsyncPubAddr _ p _ | .handleAsyncHolePunch _ p _ => some p

def EngineTask.refused {Ep : Type} : EngineTask Ep → List (EngineAnswer Ep)
  | .request (.setsockopt _ _ _) => [.setsockopt (-1)]
  | .request (.getsockopt _ _) => [.getsockopt (-1) none]
  | .request (.pendingData _) => [.pendingData (-1)]
  | _ => []

/-- Hole punching is asked of a socket that is there. -/
def EngineTask.Safe {Ep : Type} (s : UdtEngine Ep) : EngineTask Ep → Prop
  | .request (.asyncHolePunch p _ _) => s.socketExists p = true
  | _ => True

/-- A new socket is not at the address of a task that waits. -/
def EngineTask.Apart {Ep : Type} (waiting : List (EngineTask Ep)) : EngineTask Ep → Prop
  | .request (.create p _) => ∀ task ∈ waiting, task.pointer ≠ some p
  | _ => True

namespace UdtEngine

variable {Ep : Type} {s t : UdtEngine Ep} {p k : Nat} {task : EngineTask Ep}

/-- The task that runs next is safe, and apart from those behind it. -/
def Event.Careful (s : UdtEngine Ep) : Event Ep → Prop
  | .run => ∀ task ∈ s.tasks.head?, task.Safe s ∧ task.Apart s.tasks.tail
  | _ => True

def Event.isRun : Event Ep → Bool
  | .run => true
  | _ => false

def Clean (s : UdtEngine Ep) : Prop := ∀ x ∈ s.touched, x.2 = true

theorem Clean.of_eq (clean : s.Clean) (same : t.touched = s.touched) : t.Clean := by
  rw [Clean, same]
  exact clean

theorem Clean.of_touch {x : UdtEngineSocket Ep} (clean : s.Clean) (there : s.sockets p = some x)
    (same : t.touched = s.touched ++ [(p, s.socketExists p)]) : t.Clean := by
  rw [Clean, same]
  refine List.forall_mem_append.mpr ⟨clean, List.forall_mem_singleton.mpr ?_⟩
  rw [socketExists, there]
  rfl

theorem Clean.onSocket (clean : s.Clean) (p : Nat) (f : Endpoint → Endpoint) :
    (s.onSocket p f).Clean := by
  unfold UdtEngine.onSocket
  cases there : s.sockets p with
  | none => exact clean
  | some x => exact clean.of_touch there rfl

/-- The task at place `k` of the queue was posted for a socket that is gone. -/
structure Stale (s : UdtEngine Ep) (p k : Nat) (task : EngineTask Ep) : Prop where
  waits : s.tasks[k]? = some task
  pointer : task.pointer = some p
  dead : s.sockets p = none

theorem Stale.append {more : List (EngineTask Ep)} (stale : s.Stale p k task)
    (dead : t.sockets p = none) (tasks : t.tasks = s.tasks ++ more) : t.Stale p k task := by
  refine ⟨?_, stale.pointer, dead⟩
  have below : k < s.tasks.length := (List.getElem?_eq_some_iff.mp stale.waits).1
  rw [tasks, List.getElem?_append_left below]
  exact stale.waits

theorem Stale.event {x y : UdtEngineSocket Ep} {more : List (EngineTask Ep)} {q : Nat}
    (stale : s.Stale p k task) (there : s.sockets q = some x)
    (sockets : t.sockets = Function.update s.sockets q (some y))
    (tasks : t.tasks = s.tasks ++ more) : t.Stale p k task := by
  have elsewhere : p ≠ q := by
    rintro rfl
    rw [stale.dead] at there
    contradiction
  refine stale.append ?_ tasks
  rw [sockets, Function.update_of_ne elsewhere]
  exact stale.dead

variable [LinearOrder Ep]

theorem Clean.runRequest (clean : s.Clean) (r : EngineRequest Ep)
    (safe : (EngineTask.request r).Safe s) : (s.runRequest r).Clean := by
  cases r with
  | create p sock => exact clean.of_eq rfl
  | clear => exact clean.of_eq rfl
  | close p =>
      change (s.close_ p).Clean
      unfold close_
      cases there : s.sockets p with
      | none =>
          rw [if_neg (by simp [socketExists, there])]
          exact clean
      | some x =>
          rw [if_pos (by rw [socketExists, there]; rfl)]
          exact clean.of_touch there rfl
  | asyncPubAddr p serverHostname serverPort handler =>
      change (s.asyncPubAddr_ p serverHostname serverPort handler).Clean
      unfold asyncPubAddr_
      cases there : s.sockets p with
      | none => exact clean
      | some x => exact clean.of_touch there rfl
  | asyncHolePunch p eps handler =>
      change (s.asyncHolePunch_ p eps handler).Clean
      unfold asyncHolePunch_
      cases there : s.sockets p with
      | none =>
          have exists_ : s.socketExists p = true := safe
          rw [socketExists, there] at exists_
          contradiction
      | some x => exact clean.of_touch there rfl
  | asyncConnect p handler => exact clean.onSocket p _
  | asyncAccept p handler => exact clean.onSocket p _
  | asyncSend p op => exact clean.onSocket p _
  | asyncReceive p op => exact clean.onSocket p _
  | asyncShutdown p handler => exact clean.onSocket p _
  | cancel p => exact clean.onSocket p _
  | setsockopt p optname value =>
      change (s.setsockopt_ p optname value).Clean
      unfold setsockopt_
      cases there : s.sockets p with
      | none => exact clean.of_eq rfl
      | some x => exact clean.of_touch there rfl
  | getsockopt p optname =>
      change (s.getsockopt_ p optname).Clean
      unfold getsockopt_
      cases there : s.sockets p with
      | none => exact clean.of_eq rfl
      | some x => exact clean.of_touch there rfl
  | pendingData p =>
      change (s.pendingData_ p).Clean
      unfold pendingData_
      cases there : s.sockets p with
      | none => exact clean.of_eq rfl
      | some x => exact clean.of_touch there rfl

theorem Clean.runTask (clean : s.Clean) (task : EngineTask Ep) (safe : task.Safe s) :
    (s.runTask task).Clean := by
  cases task with
  | request r => exact clean.runRequest r safe
  | handleAsyncPubAddr helper p notice =>
      change (s.handleAsyncPubAddr helper p notice).Clean
      unfold UdtEngine.handleAsyncPubAddr
      cases there : s.sockets p with
      | none => exact clean
      | some x => exact clean.of_touch there rfl
  | handleAsyncHolePunch helper p notice =>
      change (s.handleAsyncHolePunch helper p notice).Clean
      unfold UdtEngine.handleAsyncHolePunch
      cases there : s.sockets p with
      | none => exact clean
      | some x => exact clean.of_touch there rfl

theorem Clean.step (clean : s.Clean) (e : Event Ep) (careful : e.Careful s) :
    (s.step e).Clean := by
  cases e with
  | call r => exact clean.of_eq rfl
  | run =>
      cases queue : s.tasks with
      | nil =>
          simp only [UdtEngine.step, queue]
          exact clean
      | cons task rest =>
          have safe : task.Safe s := (careful task (by rw [queue]; rfl)).1
          have popped : Clean { s with tasks := rest } := clean.of_eq rfl
          simp only [UdtEngine.step, queue]
          exact popped.runTask task safe
  | socket p e =>
      cases there : s.sockets p with
      | none =>
          simp only [UdtEngine.step, there]
          exact clean
      | some x =>
          simp only [UdtEngine.step, there]
          exact clean.of_eq rfl
  | pubAddr p e =>
      cases there : s.sockets p with
      | none =>
          simp only [UdtEngine.step, there]
          exact clean
      | some x =>
          cases pubAddr : x.pubAddr with
          | none =>
              simp only [UdtEngine.step, there, pubAddr]
              exact clean
          | some old =>
              simp only [UdtEngine.step, there, pubAddr]
              exact clean.of_eq rfl
  | hpClt p e =>
      cases there : s.sockets p with
      | none =>
          simp only [UdtEngine.step, there]
          exact clean
      | some x =>
          cases hpClt : x.hpClt with
          | none =>
              simp only [UdtEngine.step, there, hpClt]
              exact clean
          | some old =>
              simp only [UdtEngine.step, there, hpClt]
              exact clean.of_eq rfl

theorem runTask_of_dead (pointer : task.pointer = some p)
    (dead : s.sockets p = none) (safe : task.Safe s) :
    s.runTask task = { s with answers := s.answers ++ task.refused } := by
  have unchanged : s = { s with answers := s.answers ++ [] } := by rw [List.append_nil]
  have absent : s.socketExists p = false := by rw [socketExists, dead]; rfl
  cases task with
  | request r =>
      cases r with
      | create | clear => contradiction
      | asyncHolePunch q eps handler =>
          obtain rfl := Option.some.inj pointer
          have exists_ : s.socketExists q = true := safe
          rw [absent] at exists_
          contradiction
      | close q =>
          obtain rfl := Option.some.inj pointer
          exact (if_neg (by rw [absent]; decide)).trans unchanged
      | asyncPubAddr q =>
          obtain rfl := Option.some.inj pointer
          simp only [runTask, runRequest, asyncPubAddr_, dead]
          exact unchanged
      | asyncConnect q | asyncAccept q | asyncSend q | asyncReceive q | asyncShutdown q
      | cancel q =>
          obtain rfl := Option.some.inj pointer
          simp only [runTask, runRequest, asyncConnect_, asyncAccept_, asyncSend_, asyncReceive_,
            asyncShutdown_, cancel_, onSocket, dead]
          exact unchanged
      | setsockopt q | getsockopt q | pendingData q =>
          obtain rfl := Option.some.inj pointer
          simp only [runTask, runRequest, setsockopt_, getsockopt_, pendingData_, dead]
          rfl
  | handleAsyncPubAddr _ q | handleAsyncHolePunch _ q =>
      obtain rfl := Option.some.inj pointer
      simp only [runTask, handleAsyncPubAddr, handleAsyncHolePunch, dead]
      exact unchanged

/-- A task that finds its socket changes no other and leaves the tasks that wait. -/
theorem runTask_of_member {x : UdtEngineSocket Ep} (pointer : task.pointer = some p)
    (there : s.sockets p = some x) :
    ∃ y more, (s.runTask task).sockets = Function.update s.sockets p y ∧
      (s.runTask task).tasks = s.tasks ++ more := by
  have same : s.sockets = Function.update s.sockets p (s.sockets p) :=
    (Function.update_eq_self p s.sockets).symm
  have waiting : s.tasks = s.tasks ++ [] := (List.append_nil s.tasks).symm
  cases task with
  | request r =>
      cases r with
      | create | clear => contradiction
      | close q =>
          obtain rfl := Option.some.inj pointer
          have exists_ : s.socketExists q = true := by rw [socketExists, there]; rfl
          rw [show s.runTask (.request (.close q)) = (s.touch q).setSocket q none from
            if_pos exists_]
          exact ⟨none, [], rfl, waiting⟩
      | asyncPubAddr q =>
          obtain rfl := Option.some.inj pointer
          simp only [runTask, runRequest, asyncPubAddr_, there]
          exact ⟨_, _, rfl, rfl⟩
      | asyncHolePunch q =>
          obtain rfl := Option.some.inj pointer
          simp only [runTask, runRequest, asyncHolePunch_, there]
          exact ⟨_, _, rfl, rfl⟩
      | asyncConnect q | asyncAccept q | asyncSend q | asyncReceive q | asyncShutdown q
      | cancel q =>
          obtain rfl := Option.some.inj pointer
          simp only [runTask, runRequest, asyncConnect_, asyncAccept_, asyncSend_, asyncReceive_,
            asyncShutdown_, cancel_, onSocket, there]
          exact ⟨_, [], rfl, waiting⟩
      | setsockopt q =>
          obtain rfl := Option.some.inj pointer
          simp only [runTask, runRequest, setsockopt_, there]
          exact ⟨_, [], rfl, waiting⟩
      | getsockopt q | pendingData q =>
          obtain rfl := Option.some.inj pointer
          simp only [runTask, runRequest, getsockopt_, pendingData_, there]
          exact ⟨s.sockets q, [], same, waiting⟩
  | handleAsyncPubAddr _ q | handleAsyncHolePunch _ q =>
      obtain rfl := Option.some.inj pointer
      simp only [runTask, handleAsyncPubAddr, handleAsyncHolePunch, there]
      exact ⟨_, [], rfl, waiting⟩

/-- No task but `create_` brings a socket back, and none takes a task that waits out of the
queue. -/
theorem runTask_dead (dead : s.sockets p = none) (safe : task.Safe s)
    (other : ∀ sock, task ≠ .request (.create p sock)) :
    (s.runTask task).sockets p = none ∧ ∃ more, (s.runTask task).tasks = s.tasks ++ more := by
  cases pointer : task.pointer with
  | some q =>
      cases there : s.sockets q with
      | none =>
          rw [runTask_of_dead pointer there safe]
          exact ⟨dead, [], (List.append_nil _).symm⟩
      | some x =>
          obtain ⟨y, more, sockets, tasks⟩ := runTask_of_member pointer there
          have elsewhere : p ≠ q := by
            rintro rfl
            rw [dead] at there
            contradiction
          refine ⟨?_, more, tasks⟩
          rw [sockets, Function.update_of_ne elsewhere]
          exact dead
  | none =>
      cases task with
      | handleAsyncPubAddr | handleAsyncHolePunch => contradiction
      | request r =>
          cases r with
          | clear => exact ⟨rfl, [], (List.append_nil _).symm⟩
          | create q sock =>
              have elsewhere : p ≠ q := fun same => other sock (by rw [same])
              refine ⟨?_, [], (List.append_nil _).symm⟩
              exact (Function.update_of_ne elsewhere _ _).trans dead
          | _ => contradiction

theorem Stale.run (stale : s.Stale p (k + 1) task) (careful : Event.run.Careful s) :
    (s.step .run).Stale p k task := by
  cases queue : s.tasks with
  | nil =>
      have waits := stale.waits
      rw [queue] at waits
      contradiction
  | cons first rest =>
      obtain ⟨safe, apart⟩ := careful first (by rw [queue]; rfl)
      have waits : rest[k]? = some task := by
        have waits := stale.waits
        rwa [queue, List.getElem?_cons_succ] at waits
      have popped : Stale { s with tasks := rest } p k task := ⟨waits, stale.pointer, stale.dead⟩
      have other : ∀ sock, first ≠ .request (.create p sock) := by
        rintro sock rfl
        rw [queue] at apart
        exact apart task (List.mem_of_getElem? waits) stale.pointer
      have result : s.step .run = UdtEngine.runTask { s with tasks := rest } first := by
        unfold UdtEngine.step
        rw [queue]
      obtain ⟨dead, more, tasks⟩ := runTask_dead (s := { s with tasks := rest }) stale.dead safe
        other
      rw [result]
      exact popped.append dead tasks

theorem Stale.step (stale : s.Stale p k task) (e : Event Ep) (waits : e.isRun = false) :
    (s.step e).Stale p k task := by
  cases e with
  | run => contradiction
  | call r => exact stale.append stale.dead rfl
  | socket q e =>
      cases there : s.sockets q with
      | none =>
          simp only [UdtEngine.step, there]
          exact stale
      | some x =>
          simp only [UdtEngine.step, there]
          exact stale.event there rfl (List.append_nil _).symm
  | pubAddr q e =>
      cases there : s.sockets q with
      | none =>
          simp only [UdtEngine.step, there]
          exact stale
      | some x =>
          cases pubAddr : x.pubAddr with
          | none =>
              simp only [UdtEngine.step, there, pubAddr]
              exact stale
          | some old =>
              simp only [UdtEngine.step, there, pubAddr]
              exact stale.event there rfl rfl
  | hpClt q e =>
      cases there : s.sockets q with
      | none =>
          simp only [UdtEngine.step, there]
          exact stale
      | some x =>
          cases hpClt : x.hpClt with
          | none =>
              simp only [UdtEngine.step, there, hpClt]
              exact stale
          | some old =>
              simp only [UdtEngine.step, there, hpClt]
              exact stale.event there rfl rfl

/-- Once the socket of a task is gone it stays gone for that task, until the task runs. -/
theorem Stale.until {es : List (Event Ep)} (stale : s.Stale p (es.countP Event.isRun) task)
    (careful : Trace.Meets UdtEngine.step (fun s e => e.Careful s) s es) :
    (s.run es).Stale p 0 task := by
  induction es generalizing s with
  | nil => exact stale
  | cons e es ih =>
      refine ih ?_ careful.2
      cases runs : e.isRun with
      | true =>
          obtain rfl : e = .run := by
            cases e with
            | run => rfl
            | _ => contradiction
          rw [List.countP_cons_of_pos runs] at stale
          exact stale.run careful.1
      | false =>
          rw [List.countP_cons_of_neg (by rw [runs]; decide)] at stale
          exact stale.step e runs

/-- In every run in which hole punching is asked only of sockets that are there and `create_` is
given no address of a task that waits, tasks touch only members of the set. A task of which the
socket was gone at any time since the task was posted changes nothing when it runs but the queue it
leaves and the result its caller waits for. -/
theorem dead_sockets_untouched (env : PubAddrEnv Ep) (before after : List (Event Ep))
    (careful : Trace.Meets step (fun s e => e.Careful s) (init env) (before ++ after)) :
    let s := (init env).run (before ++ after)
    (∀ x ∈ s.touched, x.2 = true) ∧
      ∀ task p, ((init env).run before).Stale p (after.countP Event.isRun) task → task.Safe s →
        s.tasks.head? = some task ∧ s.step .run =
          { s with tasks := s.tasks.tail, answers := s.answers ++ task.refused } := by
  intro s
  constructor
  · refine careful.invariant (I := Clean) (fun _ member => by contradiction) ?_
    exact fun s e clean met => clean.step e met
  · intro task p stale safe
    have last : s.Stale p 0 task := by
      have later := stale.until (Trace.meets_append.mp careful).2
      rwa [UdtEngine.run, UdtEngine.run, ← List.foldl_append] at later
    cases queue : s.tasks with
    | nil =>
        have waits := last.waits
        rw [queue] at waits
        contradiction
    | cons first rest =>
        have waits := last.waits
        rw [queue] at waits
        obtain rfl : first = task := Option.some.inj waits
        refine ⟨rfl, ?_⟩
        have popped : s.step .run = UdtEngine.runTask { s with tasks := rest } first := by
          unfold UdtEngine.step
          rw [queue]
        rw [popped]
        exact runTask_of_dead last.pointer last.dead safe

section Runs

def quiet : PubAddrEnv Nat := ⟨fun _ _ => none, fun _ _ => 0, fun _ _ => .success⟩

def fresh : Endpoint := Endpoint.init 0 0 0 Env.zero

/-- Hole punching is asked for before the socket is closed, and an option is set after that. The
address is used again while that task waits. -/
def closedAfterwards : List (Event Nat) :=
  [.call (.create 1 fresh), .run, .call (.asyncHolePunch 1 [5] 7), .call (.close 1),
    .call (.setsockopt 1 2 77), .run, .run]

theorem closedAfterwards_untouched :
    let s := (init quiet).run (closedAfterwards ++ [.call (.create 1 fresh)])
    (∀ x ∈ s.touched, x.2 = true) ∧ s.tasks.head? = some (.request (.setsockopt 1 2 77)) ∧
      s.step .run =
        { s with tasks := s.tasks.tail, answers := s.answers ++ [.setsockopt (-1)] } := by
  have careful : Trace.Meets step (fun s e => e.Careful s) (init quiet)
      (closedAfterwards ++ [.call (.create 1 fresh)]) := by
    refine ⟨trivial, ?_, trivial, trivial, trivial, ?_, ?_, trivial, trivial⟩
    · rintro _ ⟨⟩
      exact ⟨trivial, List.forall_mem_nil _⟩
    · rintro _ ⟨⟩
      exact ⟨rfl, trivial⟩
    · rintro _ ⟨⟩
      exact ⟨trivial, trivial⟩
  have stale : ((init quiet).run closedAfterwards).Stale 1 0 (.request (.setsockopt 1 2 77)) :=
    ⟨rfl, rfl, rfl⟩
  obtain ⟨clean, last⟩ := dead_sockets_untouched quiet closedAfterwards _ careful
  exact ⟨clean, last _ 1 stale trivial⟩

/-- Hole punching is asked for after the socket is closed. -/
def closedBefore : List (Event Nat) :=
  [.call (.create 1 fresh), .run, .call (.close 1), .call (.asyncHolePunch 1 [5] 7), .run, .run]

/-- A new socket gets the address of the closed one while an option for that one waits. -/
def reused : List (Event Nat) :=
  [.call (.create 1 fresh), .run, .call (.close 1), .call (.create 1 fresh),
    .call (.setsockopt 1 2 77), .run, .run, .run]

theorem closedBefore_touched :
    ((init quiet).run closedBefore).touched = [(1, true), (1, false)] ∧
      (¬ ∀ es : List (Event Nat), ∀ x ∈ ((init quiet).run es).touched, x.2 = true) ∧
      (((init quiet).run reused).sockets 1).map (·.sock.sk.sndBuf.hiwat) = some 77 := by
  have touched : ((init quiet).run closedBefore).touched = [(1, true), (1, false)] := by
    decide +kernel
  refine ⟨touched, fun clean => ?_, by decide +kernel⟩
  have absent := clean closedBefore (1, false) (by rw [touched]; decide)
  contradiction

end Runs

end UdtEngine
end UdtBoost
