import UdtBoost.EngineSockets
import UdtBoost.HpSteps
import UdtBoost.Slots
import UdtBoost.Trace

/-! The helper objects of a socket. A completion that the engine runs deletes the helper it finds,
so that a request is served only when no completion of an earlier one is still queued. -/
namespace UdtBoost

namespace HpClt

variable {Ep : Type} [LinearOrder Ep] {s : HpClt Ep}

/-- The completion makes the object notify. -/
def Ends (s : HpClt Ep) : Event Ep → Prop
  | .received ep hdr len => s.receiving = true ∧
      (s.stateOf ep).map (·.hear hdr len) = some .established
  | .receiveError e ep => s.receiving = true ∧ e ≠ .operationAborted ∧ s.stateOf ep ≠ none ∧
      ∀ x, x ≠ ep → s.stateOf x = none
  | .timeout e => e ≠ .operationAborted ∧ ∃ n ∈ s.waiting, n ≤ 1

theorem step_posted (s : HpClt Ep) (e : Event Ep) :
    s.Ends e ∧ (s.step e).posted.length = s.posted.length + 1 ∨
      ¬ s.Ends e ∧ (s.step e).posted.length = s.posted.length := by
  cases e with
  | received ep hdr len =>
      cases receiving : s.receiving with
      | false =>
          refine .inr ⟨fun ends => ?_, ?_⟩
          · exact Bool.false_ne_true (receiving.symm.trans ends.1)
          · simp only [step, receiving, Bool.false_eq_true, if_false]
      | true =>
          obtain ⟨_, chain⟩ := handleReceived_chains { s with receiving := false } ep hdr len
          have state := handleReceived_stateOf { s with receiving := false } ep hdr len ep
          rw [if_pos rfl] at state
          simp only [step, receiving, if_true]
          rw [state] at chain
          obtain ⟨done, _, posted⟩ | ⟨more, _, posted⟩ := chain
          · exact .inl ⟨⟨receiving, done⟩, posted⟩
          · exact .inr ⟨fun ends => more ends.2, posted⟩
  | receiveError e ep =>
      cases receiving : s.receiving with
      | false =>
          refine .inr ⟨fun ends => ?_, ?_⟩
          · exact Bool.false_ne_true (receiving.symm.trans ends.1)
          · simp only [step, receiving, Bool.false_eq_true, if_false]
      | true =>
          by_cases aborted : e = .operationAborted
          · refine .inr ⟨fun ends => ends.2.1 aborted, ?_⟩
            simp only [step, receiving, aborted, if_true]
          · obtain ⟨_, chain⟩ := handleReceiveError_chains { s with receiving := false } e ep
            have state := handleReceiveError_stateOf { s with receiving := false } e ep
            have empty : (∀ x, (handleReceiveError { s with receiving := false } e ep).stateOf x =
                none) ↔ ∀ x, x ≠ ep → s.stateOf x = none := by
              refine forall_congr' fun x => ?_
              rw [state x]
              by_cases same : x = ep
              · simp [same]
              · rw [if_neg same]
                exact ⟨fun none _ => none, fun none => none same⟩
            simp only [step, receiving, aborted, if_true, if_false]
            rw [empty] at chain
            obtain ⟨last, _, posted⟩ | ⟨more, _, posted⟩ := chain
            · exact .inl ⟨⟨receiving, aborted, last⟩, posted⟩
            · exact .inr ⟨fun ends => more ends.2.2, posted⟩
  | timeout e =>
      change s.Ends (.timeout e) ∧ (s.handleAsyncTimeout e).posted.length = _ ∨
        _ ∧ (s.handleAsyncTimeout e).posted.length = _
      cases waiting : s.waiting with
      | none =>
          refine .inr ⟨fun ends => ?_, ?_⟩
          · obtain ⟨_, n, member, _⟩ := ends
            rw [waiting] at member
            contradiction
          · rw [handleAsyncTimeout, waiting]
      | some n =>
          have result := handleAsyncTimeout_waiting s e n waiting
          by_cases aborted : e = .operationAborted
          · simp only [aborted, if_true] at result
            rw [aborted]
            exact .inr ⟨fun ends => ends.1 rfl, result.2⟩
          by_cases last : n ≤ 1
          · simp only [aborted, last, if_true, if_false] at result
            exact .inl ⟨⟨aborted, n, waiting, last⟩, result.2⟩
          · simp only [aborted, last, if_false] at result
            refine .inr ⟨fun ends => ?_, result.2⟩
            obtain ⟨_, m, member, small⟩ := ends
            rw [waiting] at member
            obtain rfl := Option.some.inj member
            exact last small

theorem asyncHolePunch_posted (handler : Nat) (eps : List Ep) :
    ((init : HpClt Ep).asyncHolePunch handler eps).posted = [] := rfl

end HpClt

namespace PubAddr

variable {Ep : Type} {s : PubAddr Ep}

/-- A `send_to` of the request fails. -/
def Unsent (s : PubAddr Ep) (trid : Word) : Prop :=
  ∃ i < DFT_SEND_COUNT, s.env.sendTo trid i ≠ .success

theorem sendLoop_posted (s : PubAddr Ep) (server : Ep) (i rounds : Nat) :
    (∃ j < rounds, s.env.sendTo s.trid (i + j) ≠ .success) ∧
        (s.sendLoop server i rounds).posted.length = s.posted.length + 1 ∨
      (¬ ∃ j < rounds, s.env.sendTo s.trid (i + j) ≠ .success) ∧
        (s.sendLoop server i rounds).posted.length = s.posted.length := by
  induction rounds generalizing s i with
  | zero => exact .inr ⟨fun ⟨j, below, _⟩ => absurd below (Nat.not_lt_zero j), rfl⟩
  | succ rounds ih =>
      by_cases result : s.env.sendTo s.trid i = .success
      · have later : (∃ j < rounds + 1, s.env.sendTo s.trid (i + j) ≠ .success) ↔
            ∃ j < rounds, s.env.sendTo s.trid (i + 1 + j) ≠ .success := by
          constructor
          · rintro ⟨j, below, failed⟩
            cases j with
            | zero => exact absurd result failed
            | succ j => exact ⟨j, by omega, by rwa [show i + 1 + j = i + (j + 1) by omega]⟩
          · rintro ⟨j, below, failed⟩
            exact ⟨j + 1, by omega, by rwa [show i + (j + 1) = i + 1 + j by omega]⟩
        rw [later, sendLoop]
        simp only [result]
        exact ih { s with sent := s.sent ++ [(server, [ascii 'A', ascii '='] ++ decimal s.trid)] }
          (i + 1)
      · refine .inl ⟨⟨0, Nat.succ_pos _, result⟩, ?_⟩
        rw [sendLoop]
        cases error : s.env.sendTo s.trid i with
        | success => contradiction
        | _ => simp [notify]

theorem sendRequest_posted (s : PubAddr Ep) (sTrid : Word) (server : Ep) :
    s.Unsent (sTrid + 1) ∧ (s.sendRequest sTrid server).2.posted.length = s.posted.length + 1 ∨
      ¬ s.Unsent (sTrid + 1) ∧ (s.sendRequest sTrid server).2.posted.length = s.posted.length := by
  have result := sendLoop_posted { s with trid := sTrid + 1 }.asyncReceive server 0 DFT_SEND_COUNT
  simp only [Nat.zero_add] at result
  exact result

theorem asyncPubAddr_posted (env : PubAddrEnv Ep) (serverHostname : List UChar) (serverPort : Half)
    (sTrid : Word) (handler : Nat) :
    ((init env serverHostname serverPort).asyncPubAddr sTrid handler).2.posted.length ≤ 1 := by
  cases literal : env.literal serverHostname serverPort with
  | none =>
      simp only [asyncPubAddr, init, literal]
      exact Nat.zero_le 1
  | some server =>
      simp only [asyncPubAddr, init, literal]
      obtain ⟨_, posted⟩ | ⟨_, posted⟩ := sendRequest_posted
        { init env serverHostname serverPort with handler, serverEp := some server } sTrid server
      · exact posted.le
      · exact posted.le.trans (Nat.zero_le 1)

variable [DecidableEq Ep]

/-- The completion makes the object notify. -/
def Ends (s : PubAddr Ep) (sTrid : Word) (e : Event Ep) : Prop :=
  s.Pending e = true ∧
    match e with
    | .resolved e found => e ≠ .operationAborted ∧
        (e = .success → found ≠ none → s.Unsent (sTrid + 1))
    | .received e remote buf => e ≠ .operationAborted ∧
        (e = .success ∧ buf ≠ [] → s.serverEp = some remote ∧ s.reply buf ≠ none)
    | .waited e => e ≠ .operationAborted

theorem step_posted (s : PubAddr Ep) (sTrid : Word) (e : Event Ep) :
    s.Ends sTrid e ∧ (s.step sTrid e).2.posted.length = s.posted.length + 1 ∨
      ¬ s.Ends sTrid e ∧ (s.step sTrid e).2.posted.length = s.posted.length := by
  cases pending : s.Pending e with
  | false =>
      refine .inr ⟨fun ends => ?_, ?_⟩
      · exact Bool.false_ne_true (pending.symm.trans ends.1)
      · simp only [step, pending, Bool.false_eq_true, if_false]
  | true =>
      cases e with
      | resolved e found =>
          simp only [step, Ends, pending, if_true, true_and]
          cases e with
          | success =>
              cases found with
              | none => exact .inl ⟨⟨by decide, by simp⟩, by simp [handleAsyncResolve, notify]⟩
              | some server =>
                  obtain ⟨unsent, posted⟩ | ⟨sent, posted⟩ := sendRequest_posted
                    { s with resolves := s.resolves - 1, serverEp := some server } sTrid server
                  · exact .inl ⟨⟨by decide, fun _ _ => unsent⟩, posted⟩
                  · exact .inr ⟨fun ends => sent (ends.2 rfl (by simp)), posted⟩
          | operationAborted => exact .inr ⟨fun ends => ends.1 rfl, by simp [handleAsyncResolve]⟩
          | _ => exact .inl ⟨⟨by simp, by simp⟩, by simp [handleAsyncResolve, notify]⟩
      | received e remote buf =>
          simp only [step, Ends, pending, if_true, true_and]
          unfold handleAsyncReceive
          by_cases aborted : e = .operationAborted
          · exact .inr ⟨fun ends => ends.1 aborted, by rw [if_pos aborted]⟩
          rw [if_neg aborted]
          by_cases packet : e = .success ∧ buf ≠ []
          · rw [if_pos packet]
            dsimp only
            by_cases server : s.serverEp = some remote
            · have same : ({ s with receives := s.receives - 1 }).reply buf = s.reply buf := rfl
              rw [if_pos server, same]
              cases reply : s.reply buf with
              | none => exact .inr ⟨fun ends => (ends.2 packet).2 rfl, rfl⟩
              | some ep => exact .inl ⟨⟨aborted, fun _ => ⟨server, by simp⟩⟩, by simp [notify]⟩
            · rw [if_neg server]
              exact .inr ⟨fun ends => server (ends.2 packet).1, rfl⟩
          · rw [if_neg packet]
            exact .inl ⟨⟨aborted, fun good => absurd good packet⟩, by simp [notify]⟩
      | waited e =>
          simp only [step, Ends, pending, if_true, true_and]
          unfold handleAsyncWait
          by_cases aborted : e = .operationAborted
          · exact .inr ⟨fun real => real aborted, by rw [if_pos aborted]⟩
          · exact .inl ⟨aborted, by rw [if_neg aborted]; simp [notify]⟩

end PubAddr

/-- The two kinds of helper objects. -/
inductive HelperKind where
  | pubAddr
  | holePunch

namespace HelperKind

variable {Ep : Type}

/-- The pointer and the helper that a completion of this kind names. -/
def completion : HelperKind → EngineTask Ep → Option (Nat × Nat)
  | .pubAddr, .handleAsyncPubAddr helper p _ => some (p, helper)
  | .holePunch, .handleAsyncHolePunch helper p _ => some (p, helper)
  | _, _ => none

/-- The helper whose handler was called. -/
def notified : HelperKind → EngineAnswer Ep → Option Nat
  | .pubAddr, .pubAddr helper _ => some helper
  | .holePunch, .holePunch helper _ => some helper
  | _, _ => none

/-- The pointer a request of this kind is for. -/
def asked : HelperKind → EngineRequest Ep → Option Nat
  | .pubAddr, .asyncPubAddr p _ _ _ => some p
  | .holePunch, .asyncHolePunch p _ _ => some p
  | _, _ => none

/-- The helper a socket has, and the last one made for it. -/
def helper (x : UdtEngineSocket Ep) : HelperKind → Option Nat
  | .pubAddr => x.pubAddr.map Helper.id
  | .holePunch => x.hpClt.map Helper.id

def last (x : UdtEngineSocket Ep) : HelperKind → Option Nat
  | .pubAddr => x.lastPubAddr
  | .holePunch => x.lastHpClt

end HelperKind

namespace UdtEngine

variable {Ep : Type} {s t : UdtEngine Ep} {k : HelperKind} {p i : Nat} {x y : UdtEngineSocket Ep}

/-- The engine as slots with one kind of helper. -/
def slots (s : UdtEngine Ep) (k : HelperKind) : Slots Nat where
  alive p := (s.sockets p).bind (HelperKind.helper · k)
  latest p := (s.sockets p).bind (HelperKind.last · k)
  queued := s.tasks.filterMap k.completion
  called := s.answers.filterMap k.notified
  next := match k with
    | .pubAddr => s.pubAddrs
    | .holePunch => s.hpClts

/-- No completion for `p` is queued. -/
def Quiet (s : UdtEngine Ep) (k : HelperKind) (p : Nat) : Prop :=
  ∀ c ∈ s.tasks.filterMap k.completion, c.1 ≠ p

/-- No completion of helper `i` is queued. -/
def Silent (s : UdtEngine Ep) (k : HelperKind) (i : Nat) : Prop :=
  ∀ c ∈ s.tasks.filterMap k.completion, c.2 ≠ i

/-- A request is run only when no completion of an earlier one for the socket is queued, and a
helper does not notify while its completion is queued. -/
def Event.Undisturbed [LinearOrder Ep] (s : UdtEngine Ep) : Event Ep → Prop
  | .run => ∀ r, s.tasks.head? = some (.request r) → ∀ k p, HelperKind.asked k r = some p →
      s.socketExists p = true → s.Quiet k p
  | .pubAddr p e => ∀ x ∈ s.sockets p, ∀ old ∈ x.pubAddr, old.obj.Ends s.sTrid e →
      s.Silent .pubAddr old.id
  | .hpClt p e => ∀ x ∈ s.sockets p, ∀ old ∈ x.hpClt, old.obj.Ends e → s.Silent .holePunch old.id
  | _ => True

abbrev Steps : Slots Nat → Slots Nat → Prop := Relation.ReflTransGen Slots.Step

theorem Steps.of_eq {a b : Slots Nat} (same : b = a) : Steps a b := by
  rw [same]

theorem alive_update (sockets : t.sockets = Function.update s.sockets p (some y)) :
    (t.slots k).alive = Function.update (s.slots k).alive p (k.helper y) := by
  funext q
  by_cases same : q = p
  · subst same
    simp [slots, sockets]
  · simp [slots, sockets, same]

theorem latest_update (sockets : t.sockets = Function.update s.sockets p (some y)) :
    (t.slots k).latest = Function.update (s.slots k).latest p (k.last y) := by
  funext q
  by_cases same : q = p
  · subst same
    simp [slots, sockets]
  · simp [slots, sockets, same]

theorem slots_alive (there : s.sockets p = some x) : (s.slots k).alive p = k.helper x := by
  simp [slots, there]

theorem slots_latest (there : s.sockets p = some x) : (s.slots k).latest p = k.last x := by
  simp [slots, there]

theorem latest_kept (there : s.sockets p = some x)
    (sockets : t.sockets = Function.update s.sockets p (some y)) (last : k.last y = k.last x) :
    (t.slots k).latest = (s.slots k).latest := by
  rw [latest_update sockets, last, ← slots_latest there, Function.update_eq_self]

theorem alive_kept (there : s.sockets p = some x)
    (sockets : t.sockets = Function.update s.sockets p (some y))
    (helper : k.helper y = k.helper x) : (t.slots k).alive = (s.slots k).alive := by
  rw [alive_update sockets, helper, ← slots_alive there, Function.update_eq_self]

/-- What leaves the helpers of a kind, its completions and its handlers alone. -/
theorem slots_kept (there : s.sockets p = some x)
    (sockets : t.sockets = Function.update s.sockets p (some y))
    (helper : k.helper y = k.helper x) (last : k.last y = k.last x)
    (queued : (t.slots k).queued = (s.slots k).queued)
    (called : (t.slots k).called = (s.slots k).called) (next : (t.slots k).next = (s.slots k).next) :
    t.slots k = s.slots k :=
  Slots.ext (alive_kept there sockets helper) (latest_kept there sockets last) queued called next

/-- A helper of the kind posts at most one notice, and none while one of its own is queued. -/
theorem steps_posted {α : Type} (notices : List α) (task : α → EngineTask Ep)
    (names : ∀ n, k.completion (task n) = some (p, i)) (there : (s.slots k).alive p = some i)
    (few : notices.length ≤ 1) (silent : notices ≠ [] → s.Silent k i) :
    Steps (s.slots k) (slots { s with tasks := s.tasks ++ notices.map task } k) := by
  match notices with
  | [] =>
      have same : slots { s with tasks := s.tasks ++ [].map task } k = s.slots k := by
        rw [List.map_nil, List.append_nil]
      rw [same]
  | [n] =>
      have result : slots { s with tasks := s.tasks ++ [n].map task } k = (s.slots k).post p i := by
        simp [slots, Slots.post, names]
      rw [result]
      exact .single (.post p i there (silent (by simp)))
  | _ :: _ :: _ =>
      have many := few
      simp at many

/-- Notices of the other kind are not seen. -/
theorem slots_posted {α : Type} (notices : List α) (task : α → EngineTask Ep)
    (other : ∀ n, k.completion (task n) = none) :
    slots { s with tasks := s.tasks ++ notices.map task } k = s.slots k := by
  have none_ : notices.filterMap (fun n => k.completion (task n)) = [] := by
    rw [List.filterMap_eq_nil_iff]
    exact fun n _ => other n
  simp [slots, List.filterMap_append, List.filterMap_map, none_]

/-- A request makes a new helper in place of the one that is there. -/
theorem slots_request (sockets : t.sockets = Function.update s.sockets p (some y))
    (helper : k.helper y = some (s.slots k).next) (last : k.last y = some (s.slots k).next)
    (queued : (t.slots k).queued = (s.slots k).queued)
    (called : (t.slots k).called = (s.slots k).called)
    (next : (t.slots k).next = (s.slots k).next + 1) :
    t.slots k = (s.slots k).request p := by
  refine Slots.ext ?_ ?_ queued called next
  · rw [alive_update sockets, helper]
    rfl
  · rw [latest_update sockets, last]
    rfl

/-- A pointer that has no socket any more, or a new one without helpers. -/
theorem steps_replaced {z : Option (UdtEngineSocket Ep)}
    (bare : ∀ y ∈ z, k.helper y = none ∧ k.last y = none) :
    Steps (s.slots k) ((s.setSocket p z).slots k) := by
  refine .single (.forget (fun q => ?_) rfl rfl rfl)
  by_cases same : q = p
  · subst same
    right
    cases z with
    | none => simp [slots, setSocket]
    | some y => simpa [slots, setSocket] using bare y rfl
  · left
    simp [slots, setSocket, same]

theorem slots_answer {a : EngineAnswer Ep} (other : k.notified a = none) :
    (s.answer a).slots k = s.slots k := by
  simp [slots, answer, List.filterMap_append, other]

theorem steps_onSocket (p : Nat) (f : Endpoint → Endpoint) :
    Steps (s.slots k) ((s.onSocket p f).slots k) := by
  cases there : s.sockets p with
  | none =>
      simp only [onSocket, there]
      exact .refl
  | some x =>
      simp only [onSocket, there]
      exact .of_eq (slots_kept there rfl (by cases k <;> rfl) (by cases k <;> rfl) rfl rfl rfl)

variable [LinearOrder Ep]

omit [LinearOrder Ep] in
theorem steps_asyncPubAddr (sound : (s.slots k).Sound) (serverHostname : List UChar)
    (serverPort : Half) (handler : Nat)
    (quiet : k = .pubAddr → s.socketExists p = true → s.Quiet k p) :
    Steps (s.slots k) ((s.asyncPubAddr_ p serverHostname serverPort handler).slots k) := by
  cases there : s.sockets p with
  | none =>
      simp only [asyncPubAddr_, there]
      exact .refl
  | some x =>
      have few := PubAddr.asyncPubAddr_posted s.env serverHostname serverPort s.sTrid handler
      simp only [asyncPubAddr_, there]
      generalize (PubAddr.init s.env serverHostname serverPort).asyncPubAddr s.sTrid handler = made
        at few ⊢
      cases k with
      | holePunch =>
          rw [postPubAddr, slots_posted]
          · exact .of_eq (slots_kept there rfl rfl rfl rfl rfl rfl)
          · exact fun _ => rfl
      | pubAddr =>
          have exists_ : s.socketExists p = true := by rw [socketExists, there]; rfl
          let mid := { s.touch p with sTrid := made.1, pubAddrs := s.pubAddrs + 1 }.setSocket p
            (some { x with pubAddr := some ⟨s.pubAddrs, made.2⟩, lastPubAddr := some s.pubAddrs })
          have request : mid.slots .pubAddr = (s.slots .pubAddr).request p :=
            slots_request rfl rfl rfl rfl rfl rfl
          have alive : (mid.slots .pubAddr).alive p = some s.pubAddrs := by
            rw [request]
            exact Function.update_self ..
          have silent : mid.Silent .pubAddr s.pubAddrs := by
            rintro ⟨q, i⟩ member rfl
            exact sound.next_unqueued member
          have posted := steps_posted (s := mid) (made.2.posted.drop 0)
            (.handleAsyncPubAddr s.pubAddrs p) (fun _ => rfl) alive few (fun _ => silent)
          rw [request] at posted
          exact .trans (.single (.request p (quiet rfl exists_))) posted

theorem steps_asyncHolePunch (sound : (s.slots k).Sound) (eps : List Ep) (handler : Nat)
    (quiet : k = .holePunch → s.socketExists p = true → s.Quiet k p) :
    Steps (s.slots k) ((s.asyncHolePunch_ p eps handler).slots k) := by
  cases there : s.sockets p with
  | none =>
      simp only [asyncHolePunch_, there]
      exact .refl
  | some x =>
      have nothing := HpClt.asyncHolePunch_posted handler eps
      simp only [asyncHolePunch_, there]
      rw [postHolePunch]
      simp only [nothing, List.drop_nil, List.map_nil, List.append_nil]
      cases k with
      | pubAddr => exact .of_eq (slots_kept there rfl rfl rfl rfl rfl rfl)
      | holePunch =>
          have exists_ : s.socketExists p = true := by rw [socketExists, there]; rfl
          have request := slots_request (s := s) (t := { s.touch p with hpClts := s.hpClts + 1
            }.setSocket p (some { x with
              hpClt := some ⟨s.hpClts, HpClt.init.asyncHolePunch handler eps⟩
              lastHpClt := some s.hpClts })) (k := .holePunch) rfl rfl rfl rfl rfl rfl
          have step := Slots.Step.request (s := s.slots .holePunch) p (quiet rfl exists_)
          rw [← request] at step
          exact .single step

theorem steps_runRequest (sound : (s.slots k).Sound) (r : EngineRequest Ep)
    (quiet : ∀ p, k.asked r = some p → s.socketExists p = true → s.Quiet k p) :
    Steps (s.slots k) ((s.runRequest r).slots k) := by
  cases r with
  | create p sock =>
      apply steps_replaced
      rintro y ⟨⟩
      cases k <;> exact ⟨rfl, rfl⟩
  | close p =>
      change Steps _ ((s.close_ p).slots k)
      unfold close_
      split
      · apply steps_replaced
        exact fun y member => by contradiction
      · exact .refl
  | clear => exact .single (.forget (fun q => .inr ⟨rfl, rfl⟩) rfl rfl rfl)
  | asyncPubAddr p serverHostname serverPort handler =>
      exact steps_asyncPubAddr sound serverHostname serverPort handler fun same =>
        quiet p (by rw [same]; rfl)
  | asyncHolePunch p eps handler =>
      exact steps_asyncHolePunch sound eps handler fun same => quiet p (by rw [same]; rfl)
  | asyncConnect p handler => exact steps_onSocket p _
  | asyncAccept p handler => exact steps_onSocket p _
  | asyncSend p op => exact steps_onSocket p _
  | asyncReceive p op => exact steps_onSocket p _
  | asyncShutdown p handler => exact steps_onSocket p _
  | cancel p => exact steps_onSocket p _
  | setsockopt p optname value =>
      change Steps _ ((s.setsockopt_ p optname value).slots k)
      unfold setsockopt_
      cases there : s.sockets p with
      | none =>
          rw [slots_answer (by cases k <;> rfl)]
      | some x =>
          rw [slots_answer (by cases k <;> rfl)]
          exact .of_eq (slots_kept there rfl (by cases k <;> rfl) (by cases k <;> rfl) rfl rfl rfl)
  | getsockopt p optname =>
      change Steps _ ((s.getsockopt_ p optname).slots k)
      unfold getsockopt_
      cases s.sockets p <;> rw [slots_answer (by cases k <;> rfl)]
      exact .refl
  | pendingData p =>
      change Steps _ ((s.pendingData_ p).slots k)
      unfold pendingData_
      cases s.sockets p <;> rw [slots_answer (by cases k <;> rfl)]
      exact .refl

omit [LinearOrder Ep] in
/-- A completion that is run calls its handler and deletes the helper that is there. -/
theorem slots_delivered {task : EngineTask Ep} {rest : List (EngineTask Ep)} {a : EngineAnswer Ep}
    (there : s.sockets p = some x)
    (queue : s.tasks = task :: rest) (names : k.completion task = some (p, i))
    (calls : k.notified a = some i) (helper : k.helper y = none) (last : k.last y = k.last x) :
    slots { s with
      tasks := rest
      sockets := Function.update s.sockets p (some y)
      answers := s.answers ++ [a]
      touched := s.touched ++ [(p, s.socketExists p)] } k = (s.slots k).deliver p i := by
  refine Slots.ext ?_ ?_ ?_ ?_ rfl
  · rw [alive_update (s := s) (p := p) (y := y) rfl, helper]
    rfl
  · rw [latest_kept there rfl last]
    rfl
  · simp [slots, Slots.deliver, queue, names]
  · simp [slots, Slots.deliver, calls]

omit [LinearOrder Ep] in
theorem slots_popped {task : EngineTask Ep} {rest : List (EngineTask Ep)}
    (queue : s.tasks = task :: rest) (other : k.completion task = none) :
    slots { s with tasks := rest } k = s.slots k := by
  simp [slots, queue, other]

omit [LinearOrder Ep] in
theorem steps_discarded {task : EngineTask Ep} {rest : List (EngineTask Ep)}
    (queue : s.tasks = task :: rest) (names : k.completion task = some (p, i)) :
    Steps (s.slots k) (slots { s with tasks := rest } k) :=
  .single (.discard p i (rest.filterMap k.completion) (by simp [slots, queue, names]))

omit [LinearOrder Ep] in
theorem steps_delivered {task : EngineTask Ep} {rest : List (EngineTask Ep)} {a : EngineAnswer Ep}
    (there : s.sockets p = some x)
    (queue : s.tasks = task :: rest) (names : k.completion task = some (p, i))
    (calls : k.notified a = some i) (helper : k.helper y = none) (last : k.last y = k.last x) :
    Steps (s.slots k) (slots { s with
      tasks := rest
      sockets := Function.update s.sockets p (some y)
      answers := s.answers ++ [a]
      touched := s.touched ++ [(p, s.socketExists p)] } k) := by
  rw [slots_delivered there queue names calls helper last]
  exact .single (.deliver p i (rest.filterMap k.completion) (by simp [slots, queue, names]))

theorem steps_runTask (sound : (s.slots k).Sound) {task : EngineTask Ep}
    {rest : List (EngineTask Ep)} (queue : s.tasks = task :: rest)
    (quiet : ∀ r, task = .request r → ∀ p, k.asked r = some p → s.socketExists p = true →
      s.Quiet k p) :
    Steps (s.slots k) ((runTask { s with tasks := rest } task).slots k) := by
  cases task with
  | request r =>
      have popped : slots { s with tasks := rest } k = s.slots k :=
        slots_popped queue (by cases k <;> rfl)
      rw [← popped] at sound ⊢
      refine steps_runRequest sound r fun p asked exists_ => ?_
      have quiet := quiet r rfl p asked exists_
      change ∀ c ∈ (s.slots k).queued, c.1 ≠ p at quiet
      rw [← popped] at quiet
      exact quiet
  | handleAsyncPubAddr helper p notice =>
      change Steps _ ((UdtEngine.handleAsyncPubAddr _ helper p notice).slots k)
      unfold UdtEngine.handleAsyncPubAddr
      cases there : s.sockets p with
      | none =>
          cases k with
          | pubAddr => exact steps_discarded queue rfl
          | holePunch =>
              rw [← slots_popped queue rfl]
      | some x =>
          cases k with
          | pubAddr =>
              exact steps_delivered there queue rfl rfl rfl rfl
          | holePunch =>
              rw [slots_answer rfl, ← slots_popped queue rfl]
              exact .of_eq (slots_kept there rfl rfl rfl rfl rfl rfl)
  | handleAsyncHolePunch helper p notice =>
      change Steps _ ((UdtEngine.handleAsyncHolePunch _ helper p notice).slots k)
      unfold UdtEngine.handleAsyncHolePunch
      cases there : s.sockets p with
      | none =>
          cases k with
          | holePunch => exact steps_discarded queue rfl
          | pubAddr =>
              rw [← slots_popped queue rfl]
      | some x =>
          cases k with
          | holePunch =>
              exact steps_delivered there queue rfl rfl rfl rfl
          | pubAddr =>
              rw [slots_answer rfl, ← slots_popped queue rfl]
              exact .of_eq (slots_kept there rfl rfl rfl rfl rfl rfl)

omit [LinearOrder Ep] in
theorem drop_one {α : Type} {before after : List α} {ends : Prop}
    (posted : ends ∧ after.length = before.length + 1 ∨ ¬ ends ∧ after.length = before.length) :
    (after.drop before.length).length ≤ 1 ∧ (after.drop before.length ≠ [] → ends) := by
  rw [List.length_drop]
  obtain ⟨yes, length⟩ | ⟨_, length⟩ := posted
  · exact ⟨by omega, fun _ => yes⟩
  · refine ⟨by omega, fun more => ?_⟩
    exact absurd (List.drop_eq_nil_of_le length.le) more

theorem steps_step (sound : (s.slots k).Sound) (e : Event Ep) (undisturbed : e.Undisturbed s) :
    Steps (s.slots k) ((s.step e).slots k) := by
  cases e with
  | call r =>
      have same : (s.step (.call r)).slots k = s.slots k :=
        slots_posted [r] EngineTask.request fun r => by cases k <;> rfl
      rw [same]
  | run =>
      cases queue : s.tasks with
      | nil =>
          simp only [step, queue]
          exact .refl
      | cons task rest =>
          simp only [step, queue]
          refine steps_runTask sound queue fun r same p asked exists_ => ?_
          exact undisturbed r (by rw [queue, same]; rfl) k p asked exists_
  | socket p e =>
      cases there : s.sockets p with
      | none =>
          simp only [step, there]
          exact .refl
      | some x =>
          simp only [step, there]
          exact .of_eq (slots_kept there rfl (by cases k <;> rfl) (by cases k <;> rfl) rfl rfl rfl)
  | pubAddr p e =>
      cases there : s.sockets p with
      | none =>
          simp only [step, there]
          exact .refl
      | some x =>
          cases pubAddr : x.pubAddr with
          | none =>
              simp only [step, there, pubAddr]
              exact .refl
          | some old =>
              obtain ⟨few, ends⟩ := drop_one (old.obj.step_posted s.sTrid e)
              simp only [step, there, pubAddr]
              rw [postPubAddr]
              have mid : ∀ k, slots ({ s with sTrid := (old.obj.step s.sTrid e).1 }.setSocket p
                  (some { x with pubAddr := some ⟨old.id, (old.obj.step s.sTrid e).2⟩ })) k =
                  s.slots k := fun k =>
                slots_kept there rfl (by cases k <;> simp [HelperKind.helper, pubAddr])
                  (by cases k <;> rfl) rfl rfl rfl
              cases k with
              | holePunch =>
                  rw [slots_posted _ _ fun _ => rfl]
                  exact .of_eq (mid .holePunch)
              | pubAddr =>
                  refine (Steps.of_eq (mid .pubAddr)).trans (steps_posted _ _ (fun _ => rfl) ?_ few ?_)
                  · rw [mid, slots_alive there]
                    exact congrArg (Option.map Helper.id) pubAddr
                  · exact fun more => undisturbed x there old pubAddr (ends more)
  | hpClt p e =>
      cases there : s.sockets p with
      | none =>
          simp only [step, there]
          exact .refl
      | some x =>
          cases hpClt : x.hpClt with
          | none =>
              simp only [step, there, hpClt]
              exact .refl
          | some old =>
              obtain ⟨few, ends⟩ := drop_one (old.obj.step_posted e)
              simp only [step, there, hpClt]
              rw [postHolePunch]
              have mid : ∀ k, slots (s.setSocket p
                  (some { x with hpClt := some ⟨old.id, old.obj.step e⟩ })) k = s.slots k := fun k =>
                slots_kept there rfl (by cases k <;> simp [HelperKind.helper, hpClt])
                  (by cases k <;> rfl) rfl rfl rfl
              cases k with
              | pubAddr =>
                  rw [slots_posted _ _ fun _ => rfl]
                  exact .of_eq (mid .pubAddr)
              | holePunch =>
                  refine (Steps.of_eq (mid .holePunch)).trans
                    (steps_posted _ _ (fun _ => rfl) ?_ few ?_)
                  · rw [mid, slots_alive there]
                    exact congrArg (Option.map Helper.id) hpClt
                  · exact fun more => undisturbed x there old hpClt (ends more)

/-- In every run in which no request and no second notice of a helper meets a completion that is
still queued, no handler is called twice, and the last request for a socket that is there has its
helper until its own handler is called. -/
theorem superseded_requests_harmless (env : PubAddrEnv Ep) (es : List (Event Ep))
    (undisturbed : Trace.Meets step (fun s e => e.Undisturbed s) (init env) es) :
    let s := (init env).run es
    ∀ k : HelperKind, (s.answers.filterMap k.notified).Nodup ∧
      ∀ p x, s.sockets p = some x → ∀ i, k.last x = some i →
        k.helper x = some i ∨ i ∈ s.answers.filterMap k.notified := by
  intro s k
  have sound : (s.slots k).Sound := by
    refine undisturbed.invariant (I := fun s => (s.slots k).Sound) ?_ ?_
    · cases k <;> exact Slots.empty_sound
    · exact fun s e sound met => sound.steps (steps_step sound e met)
  obtain ⟨once, served⟩ := sound.served
  refine ⟨once, fun p x there i last => ?_⟩
  rw [← slots_alive there]
  exact served p i ((slots_latest there).trans last)

section Runs

/-- A candidate's answer that completes a request. -/
def answered : Event Nat :=
  .hpClt 1 (.received 5 (EndpointInfo.prepareSendPeerData (UdtHdr.TH_SYN ||| UdtHdr.TH_ACK))
    UdtHdr.size)

/-- The second request is made when the first one is served. -/
def oneByOne : List (Event Nat) :=
  [.call (.create 1 fresh), .call (.asyncHolePunch 1 [5] 7), .run, .run, answered, .run,
    .call (.asyncHolePunch 1 [6] 8), .run]

theorem oneByOne_harmless :
    let s := (init quiet).run oneByOne
    ∀ k : HelperKind, (s.answers.filterMap k.notified).Nodup ∧
      ∀ p x, s.sockets p = some x → ∀ i, k.last x = some i →
        k.helper x = some i ∨ i ∈ s.answers.filterMap k.notified := by
  apply superseded_requests_harmless quiet oneByOne
  refine ⟨trivial, trivial, ?_, ?_, ?_, ?_, trivial, ?_, trivial⟩
  · rintro _ ⟨⟩ k p asked
    cases k <;> contradiction
  · rintro _ ⟨⟩ k p asked _ c member
    cases k <;> cases member
  · rintro _ ⟨⟩ _ ⟨⟩ _ c member
    cases member
  · rintro _ ⟨⟩
  · rintro _ ⟨⟩ k p asked _ c member
    cases k <;> cases member

/-- The second request is in the queue when the first one completes. -/
def overtaken : List (Event Nat) :=
  [.call (.create 1 fresh), .call (.asyncHolePunch 1 [5] 7), .run, .run,
    .call (.asyncHolePunch 1 [6] 8), answered, .run, .run]

theorem overtaken_helper_deleted :
    let s := (init quiet).run overtaken
    (s.sockets 1).map (fun x => (HelperKind.holePunch.last x, HelperKind.holePunch.helper x)) =
        some (some 1, none) ∧
      s.answers.filterMap HelperKind.holePunch.notified = [0] ∧
      ¬ ∀ es : List (Event Nat), ∀ x, ((init quiet).run es).sockets 1 = some x →
        ∀ i, HelperKind.holePunch.last x = some i → HelperKind.holePunch.helper x = some i ∨
          i ∈ ((init quiet).run es).answers.filterMap HelperKind.holePunch.notified := by
  have last : (((init quiet).run overtaken).sockets 1).map (fun x =>
      (HelperKind.holePunch.last x, HelperKind.holePunch.helper x)) = some (some 1, none) := by
    decide +kernel
  have called : ((init quiet).run overtaken).answers.filterMap HelperKind.holePunch.notified =
      [0] := by
    decide +kernel
  refine ⟨last, called, fun served => ?_⟩
  obtain ⟨x, there, both⟩ := Option.map_eq_some_iff.mp last
  obtain ⟨number, none_⟩ := Prod.mk.inj both
  obtain helper | notified := served overtaken x there 1 number
  · rw [none_] at helper
    contradiction
  · rw [called] at notified
    contradiction

end Runs

end UdtEngine
end UdtBoost
