import UdtBoost.HpSteps

/-! How often a hole-punch request is answered. The receive chain and the countdown each end in at
most one `notify`, but neither stops the other. -/
namespace UdtBoost

namespace HpClt

variable {Ep : Type} {ep : Ep} {e : Event Ep} {h es : List (Event Ep)}

namespace Event

/-- The header is one that `handle_peer_resp` looks at. -/
def Looked (hdr : UdtHdr) (len : Nat) : Prop := len = UdtHdr.size ∧ hasHp hdr.flags = true

def SynFrom (ep : Ep) : Event Ep → Prop
  | .received sender hdr len => ep = sender ∧ Looked hdr len ∧ hasSyn hdr.flags = true
  | _ => False

def AckFrom (ep : Ep) : Event Ep → Prop
  | .received sender hdr len => ep = sender ∧ Looked hdr len ∧ hasAck hdr.flags = true
  | _ => False

def FailsAt (ep : Ep) (e : Event Ep) : Prop :=
  ∃ error, error ≠ .operationAborted ∧ e = .receiveError error ep

def AbortsReceive (e : Event Ep) : Prop := ∃ ep, e = .receiveError .operationAborted ep

def isTimeout : Event Ep → Bool
  | .timeout _ => true
  | _ => false

end Event

/-- The last packet is an ACK of a candidate that sent a SYN before or with it. -/
def Succeeds (eps : List Ep) (h : List (Event Ep)) : Prop :=
  ∃ ep ∈ eps, (∃ e, h.getLast? = some e ∧ e.AckFrom ep) ∧ (∃ x ∈ h, x.SynFrom ep) ∧
    ∀ x ∈ h, ¬ x.FailsAt ep

/-- There were candidates and each is lost to an error. -/
def Fails (eps : List Ep) (h : List (Event Ep)) : Prop :=
  eps ≠ [] ∧ ∀ ep ∈ eps, ∃ x ∈ h, x.FailsAt ep

/-- The receive chain comes to an answer. -/
def Completes (eps : List Ep) (es : List (Event Ep)) : Prop :=
  ∃ h, h <+: es ∧ (∀ x ∈ h, ¬ x.AbortsReceive) ∧ (Succeeds eps h ∨ Fails eps h)

/-- The countdown comes to its end. -/
def Expires (es : List (Event Ep)) : Prop :=
  ∃ h, h <+: es ∧ (∀ x ∈ h, x ≠ .timeout .operationAborted) ∧
    DFT_TIMEOUT_COUNT ≤ h.countP Event.isTimeout

theorem completes_append {eps : List Ep} : Completes eps (h ++ [e]) ↔ Completes eps h ∨
    (∀ x ∈ h ++ [e], ¬ x.AbortsReceive) ∧ (Succeeds eps (h ++ [e]) ∨ Fails eps (h ++ [e])) := by
  constructor
  · rintro ⟨p, before, alive, ends⟩
    rcases List.prefix_concat_iff.mp before with rfl | earlier
    · exact .inr ⟨alive, ends⟩
    · exact .inl ⟨p, earlier, alive, ends⟩
  · rintro (⟨p, before, ends⟩ | ends)
    · exact ⟨p, before.trans (List.prefix_append _ _), ends⟩
    · exact ⟨h ++ [e], List.prefix_refl _, ends⟩

theorem expires_append : Expires (h ++ [e]) ↔ Expires h ∨
    (∀ x ∈ h ++ [e], x ≠ .timeout .operationAborted) ∧
      DFT_TIMEOUT_COUNT ≤ (h ++ [e]).countP Event.isTimeout := by
  constructor
  · rintro ⟨p, before, alive, ends⟩
    rcases List.prefix_concat_iff.mp before with rfl | earlier
    · exact .inr ⟨alive, ends⟩
    · exact .inl ⟨p, earlier, alive, ends⟩
  · rintro (⟨p, before, ends⟩ | ends)
    · exact ⟨p, before.trans (List.prefix_append _ _), ends⟩
    · exact ⟨h ++ [e], List.prefix_refl _, ends⟩

section Countdown

/-- The timer after the events `h`, with `n` notices of its own. -/
inductive Countdown (s : HpClt Ep) (h : List (Event Ep)) : Nat → Prop
  | counting (waiting : s.waiting = some (DFT_TIMEOUT_COUNT - h.countP Event.isTimeout))
      (left : h.countP Event.isTimeout < DFT_TIMEOUT_COUNT)
      (alive : ∀ x ∈ h, x ≠ .timeout .operationAborted) : Countdown s h 0
  | aborted (waiting : s.waiting = none) (never : ¬ Expires h)
      (abort : Event.timeout .operationAborted ∈ h) : Countdown s h 0
  | expired (waiting : s.waiting = none) (expires : Expires h) : Countdown s h 1

variable {s t : HpClt Ep} {n : Nat}

theorem Countdown.expires_iff (countdown : Countdown s h n) : Expires h ↔ n = 1 := by
  cases countdown with
  | counting _ left _ =>
      constructor
      · rintro ⟨p, before, _, full⟩
        have bound := before.sublist.countP_le (p := Event.isTimeout)
        omega
      · intro zero
        contradiction
  | aborted _ never _ => exact ⟨fun expires => absurd expires never, fun zero => by contradiction⟩
  | expired _ expires => exact ⟨fun _ => rfl, fun _ => expires⟩

/-- Other events leave the countdown alone. -/
theorem Countdown.other (countdown : Countdown s h n) (waiting : t.waiting = s.waiting)
    (other : e.isTimeout = false) : Countdown t (h ++ [e]) n := by
  have count : (h ++ [e]).countP Event.isTimeout = h.countP Event.isTimeout := by
    rw [List.countP_append, List.countP_singleton, other]
    rfl
  have fresh : e ≠ .timeout .operationAborted := by
    rintro rfl
    contradiction
  cases countdown with
  | counting waits left alive =>
      refine .counting ?_ ?_ ?_
      · rw [count, waiting, waits]
      · rw [count]
        exact left
      · exact List.forall_mem_append.mpr ⟨alive, List.forall_mem_singleton.mpr fresh⟩
  | aborted waits never abort =>
      refine .aborted (waiting.trans waits) ?_ (List.mem_append_left _ abort)
      rw [expires_append]
      rintro (expires | ⟨alive, _⟩)
      · exact never expires
      · exact alive _ (List.mem_append_left _ abort) rfl
  | expired waits expires =>
      exact .expired (waiting.trans waits) (expires_append.mpr (.inl expires))

theorem Countdown.timeout (countdown : Countdown s h n) (error : HpError) :
    ∃ m, Countdown (s.handleAsyncTimeout error) (h ++ [Event.timeout error]) m ∧
      (s.handleAsyncTimeout error).posted.length + n = s.posted.length + m := by
  have count : (h ++ [Event.timeout error]).countP Event.isTimeout = h.countP Event.isTimeout + 1 := by
    rw [List.countP_append, List.countP_singleton]
    rfl
  cases countdown with
  | counting waiting left alive =>
      have spec := s.handleAsyncTimeout_waiting error _ waiting
      dsimp only at spec
      have unexpired : ¬ Expires h := by
        rintro ⟨p, before, _, full⟩
        have bound := before.sublist.countP_le (p := Event.isTimeout)
        omega
      by_cases aborted : error = .operationAborted
      · rw [if_pos aborted] at spec
        subst aborted
        refine ⟨0, .aborted spec.1 ?_ (by simp), by omega⟩
        rw [expires_append]
        rintro (expires | ⟨alive', _⟩)
        · exact unexpired expires
        · exact alive' _ (by simp) rfl
      rw [if_neg aborted] at spec
      have alive' : ∀ x ∈ h ++ [Event.timeout error], x ≠ .timeout .operationAborted := by
        refine List.forall_mem_append.mpr ⟨alive, List.forall_mem_singleton.mpr ?_⟩
        rintro same
        injection same with same
        exact aborted same
      by_cases last : DFT_TIMEOUT_COUNT - h.countP Event.isTimeout ≤ 1
      · rw [if_pos last] at spec
        exact ⟨1, .expired spec.1 (expires_append.mpr (.inr ⟨alive', by omega⟩)), by omega⟩
      · rw [if_neg last] at spec
        refine ⟨0, .counting ?_ (by omega) alive', by omega⟩
        rw [spec.1, count, Nat.sub_sub]
  | aborted waiting never abort =>
      have idle : s.handleAsyncTimeout error = s := by rw [handleAsyncTimeout, waiting]
      rw [idle]
      refine ⟨0, .aborted waiting ?_ (List.mem_append_left _ abort), rfl⟩
      rw [expires_append]
      rintro (expires | ⟨alive, _⟩)
      · exact never expires
      · exact alive _ (List.mem_append_left _ abort) rfl
  | expired waiting expires =>
      have idle : s.handleAsyncTimeout error = s := by rw [handleAsyncTimeout, waiting]
      rw [idle]
      exact ⟨1, .expired waiting (expires_append.mpr (.inl expires)), rfl⟩

end Countdown

section Receiving

open Classical in
/-- The entries left by a history without an answer. -/
noncomputable def entry (eps : List Ep) (h : List (Event Ep)) (ep : Ep) : Option HpState :=
  if ep ∈ eps ∧ ∀ x ∈ h, ¬ x.FailsAt ep then
    some (if ∃ x ∈ h, x.SynFrom ep then .synReceived else .synSent)
  else none

theorem hear_synReceived (ep : Ep) (hdr : UdtHdr) (len : Nat) :
    HpState.hear .synReceived hdr len = .established ∧ (Event.received ep hdr len).AckFrom ep ∨
      HpState.hear .synReceived hdr len = .synReceived ∧
        ¬ (Event.received ep hdr len).AckFrom ep := by
  unfold HpState.hear EndpointInfo.respond EndpointInfo.needOutput
  by_cases size : len = UdtHdr.size <;> cases hp : hasHp hdr.flags <;>
    cases ack : hasAck hdr.flags <;> simp [size, hp, ack, Event.AckFrom, Event.Looked]

theorem hear_synSent (ep : Ep) (hdr : UdtHdr) (len : Nat) :
    HpState.hear .synSent hdr len = .synSent ∧ ¬ (Event.received ep hdr len).SynFrom ep ∨
      (Event.received ep hdr len).SynFrom ep ∧
        (HpState.hear .synSent hdr len = .established ∧ (Event.received ep hdr len).AckFrom ep ∨
          HpState.hear .synSent hdr len = .synReceived ∧
            ¬ (Event.received ep hdr len).AckFrom ep) := by
  unfold HpState.hear EndpointInfo.respond EndpointInfo.needOutput
  by_cases size : len = UdtHdr.size <;> cases hp : hasHp hdr.flags <;>
    cases syn : hasSyn hdr.flags <;> cases ack : hasAck hdr.flags <;>
    simp [size, hp, syn, ack, Event.SynFrom, Event.AckFrom, Event.Looked]

theorem not_failsAt_received (ep x : Ep) (hdr : UdtHdr) (len : Nat) :
    ¬ (Event.received x hdr len).FailsAt ep := by
  rintro ⟨_, _, same⟩
  contradiction

theorem not_abortsReceive_received (ep : Ep) (hdr : UdtHdr) (len : Nat) :
    ¬ (Event.received ep hdr len).AbortsReceive := by
  rintro ⟨_, same⟩
  contradiction

variable {eps : List Ep}

theorem entry_eq_some_iff {state : HpState} : entry eps h ep = some state ↔
    (ep ∈ eps ∧ ∀ x ∈ h, ¬ x.FailsAt ep) ∧ (state = .synReceived ∧ (∃ x ∈ h, x.SynFrom ep) ∨
      state = .synSent ∧ ¬ ∃ x ∈ h, x.SynFrom ep) := by
  unfold entry
  by_cases kept : ep ∈ eps ∧ ∀ x ∈ h, ¬ x.FailsAt ep
  · rw [if_pos kept, Option.some_inj]
    by_cases heard : ∃ x ∈ h, x.SynFrom ep
    · rw [if_pos heard, eq_comm]
      exact ⟨fun same => ⟨kept, .inl ⟨same, heard⟩⟩,
        fun cases_ => (cases_.2.resolve_right fun silent => silent.2 heard).1⟩
    · rw [if_neg heard, eq_comm]
      exact ⟨fun same => ⟨kept, .inr ⟨same, heard⟩⟩,
        fun cases_ => (cases_.2.resolve_left fun spoken => heard spoken.2).1⟩
  · rw [if_neg kept]
    simp [kept]

theorem entry_eq_none_iff :
    entry eps h ep = none ↔ ¬ (ep ∈ eps ∧ ∀ x ∈ h, ¬ x.FailsAt ep) := by
  unfold entry
  split <;> simp_all

/-- A candidate's packet that does not establish its entry only counts as a SYN. -/
theorem entry_received (hdr : UdtHdr) (len : Nat) {state : HpState}
    (old : entry eps h ep = some state) (pending : state.hear hdr len ≠ .established) :
    entry eps (h ++ [.received ep hdr len]) ep = some (state.hear hdr len) := by
  obtain ⟨⟨candidate, kept⟩, heard⟩ := entry_eq_some_iff.mp old
  rw [entry_eq_some_iff]
  refine ⟨⟨candidate, List.forall_mem_append.mpr ⟨kept, List.forall_mem_singleton.mpr
    (not_failsAt_received _ _ _ _)⟩⟩, ?_⟩
  simp only [List.mem_append, List.mem_singleton, or_and_right, exists_or, exists_eq_left]
  rcases heard with ⟨rfl, syn⟩ | ⟨rfl, silent⟩
  · rcases hear_synReceived ep hdr len with ⟨done, _⟩ | ⟨same, _⟩
    · exact absurd done pending
    · exact .inl ⟨same, .inl syn⟩
  · rcases hear_synSent ep hdr len with ⟨same, first⟩ | ⟨syn, ⟨done, _⟩ | ⟨same, _⟩⟩
    · exact .inr ⟨same, fun spoken => spoken.elim silent first⟩
    · exact absurd done pending
    · exact .inl ⟨same, .inr syn⟩

theorem entry_other {x : Ep} (notSyn : ¬ e.SynFrom x) (kept : ¬ e.FailsAt x) :
    entry eps (h ++ [e]) x = entry eps h x := by
  have heard : (∃ y ∈ h ++ [e], y.SynFrom x) ↔ ∃ y ∈ h, y.SynFrom x := by
    simp [or_and_right, exists_or, notSyn]
  have lost : (∀ y ∈ h ++ [e], ¬ y.FailsAt x) ↔ ∀ y ∈ h, ¬ y.FailsAt x := by
    simp [or_imp, forall_and, kept]
  refine Option.ext fun state => ?_
  rw [entry_eq_some_iff, entry_eq_some_iff, heard, lost]

/-- The packet that establishes an entry answers the request. -/
theorem succeeds_received_iff (hdr : UdtHdr) (len : Nat) (ep : Ep) :
    Succeeds eps (h ++ [.received ep hdr len]) ↔
      ∃ state, entry eps h ep = some state ∧ state.hear hdr len = .established := by
  have appended : ∀ x : Ep, (∃ y ∈ h ++ [Event.received ep hdr len], y.SynFrom x) ↔
      (∃ y ∈ h, y.SynFrom x) ∨ (Event.received ep hdr len).SynFrom x := by
    intro x
    simp [or_and_right, exists_or]
  constructor
  · rintro ⟨x, candidate, ⟨last, isLast, ack⟩, syn, kept⟩
    rw [List.getLast?_concat] at isLast
    obtain rfl := Option.some.inj isLast
    obtain rfl := ack.1
    have kept := (List.forall_mem_append.mp kept).1
    rw [appended] at syn
    by_cases heard : ∃ y ∈ h, y.SynFrom x
    · refine ⟨.synReceived, entry_eq_some_iff.mpr ⟨⟨candidate, kept⟩, .inl ⟨rfl, heard⟩⟩, ?_⟩
      exact ((hear_synReceived x hdr len).resolve_right fun silent => silent.2 ack).1
    · refine ⟨.synSent, entry_eq_some_iff.mpr ⟨⟨candidate, kept⟩, .inr ⟨rfl, heard⟩⟩, ?_⟩
      have first := syn.resolve_left heard
      have result := ((hear_synSent x hdr len).resolve_left fun silent => silent.2 first).2
      exact (result.resolve_right fun silent => silent.2 ack).1
  · rintro ⟨state, old, done⟩
    obtain ⟨⟨candidate, kept⟩, heard⟩ := entry_eq_some_iff.mp old
    have both : (Event.received ep hdr len).AckFrom ep ∧
        ((∃ y ∈ h, y.SynFrom ep) ∨ (Event.received ep hdr len).SynFrom ep) := by
      rcases heard with ⟨rfl, syn⟩ | ⟨rfl, _⟩
      · rcases hear_synReceived ep hdr len with ⟨_, ack⟩ | ⟨same, _⟩
        · exact ⟨ack, .inl syn⟩
        · rw [same] at done
          contradiction
      · rcases hear_synSent ep hdr len with ⟨same, _⟩ | ⟨syn, ⟨_, ack⟩ | ⟨same, _⟩⟩
        · rw [same] at done
          contradiction
        · exact ⟨ack, .inr syn⟩
        · rw [same] at done
          contradiction
    exact ⟨ep, candidate, ⟨_, List.getLast?_concat, both.1⟩, (appended ep).mpr both.2,
      List.forall_mem_append.mpr ⟨kept, List.forall_mem_singleton.mpr
        (not_failsAt_received _ _ _ _)⟩⟩

variable [LinearOrder Ep] {s t : HpClt Ep} {n : Nat}

/-- The receive chain after the events `h`, with `n` notices of its own. -/
inductive Receiving (eps : List Ep) (s : HpClt Ep) (h : List (Event Ep)) : Nat → Prop
  | pending (receiving : s.receiving = true) (open_ : ¬ Completes eps h)
      (alive : ∀ x ∈ h, ¬ x.AbortsReceive) (entries : ∀ ep, s.stateOf ep = entry eps h ep) :
      Receiving eps s h 0
  | aborted (receiving : s.receiving = false) (open_ : ¬ Completes eps h)
      (abort : ∃ x ∈ h, x.AbortsReceive) : Receiving eps s h 0
  | answered (receiving : s.receiving = false) (complete : Completes eps h) : Receiving eps s h 1

theorem Receiving.completes_iff (chain : Receiving eps s h n) : Completes eps h ↔ n = 1 := by
  cases chain with
  | pending _ open_ => exact ⟨fun complete => absurd complete open_, fun zero => by contradiction⟩
  | aborted _ open_ => exact ⟨fun complete => absurd complete open_, fun zero => by contradiction⟩
  | answered _ complete => exact ⟨fun _ => rfl, fun _ => complete⟩

/-- Nothing is received any more. -/
theorem Receiving.over (chain : Receiving eps s h n) (ended : s.receiving = false)
    (still : t.receiving = false) : Receiving eps t (h ++ [e]) n := by
  cases chain with
  | pending receiving =>
      rw [ended] at receiving
      contradiction
  | aborted _ open_ abort =>
      obtain ⟨x, member, aborts⟩ := abort
      refine .aborted still ?_ ⟨x, List.mem_append_left _ member, aborts⟩
      rw [completes_append]
      rintro (complete | ⟨alive, _⟩)
      · exact open_ complete
      · exact alive x (List.mem_append_left _ member) aborts
  | answered _ complete => exact .answered still (completes_append.mpr (.inl complete))

omit [LinearOrder Ep] in
theorem fails_append (kept : ∀ ep ∈ eps, ¬ e.FailsAt ep) :
    Fails eps (h ++ [e]) ↔ Fails eps h := by
  refine and_congr_right fun _ => forall₂_congr fun ep candidate => ?_
  simp [or_and_right, exists_or, kept ep candidate]

omit [LinearOrder Ep] in
/-- Only an ACK can be the last packet of a success. -/
theorem not_succeeds_append (notAck : ∀ ep, ¬ e.AckFrom ep) : ¬ Succeeds eps (h ++ [e]) := by
  rintro ⟨ep, _, ⟨last, isLast, ack⟩, _⟩
  rw [List.getLast?_concat] at isLast
  obtain rfl := Option.some.inj isLast
  exact notAck ep ack

theorem Receiving.timeout (chain : Receiving eps s h n) (error : HpError) :
    Receiving eps (s.handleAsyncTimeout error) (h ++ [.timeout error]) n := by
  have receiving' := s.handleAsyncTimeout_receiving error
  cases receives : s.receiving with
  | false => exact chain.over receives (receiving'.trans receives)
  | true =>
      cases chain with
      | pending _ open_ alive entries =>
          have quiet : ∀ ep : Ep, ¬ (Event.timeout error).FailsAt ep := by
            rintro ep ⟨_, _, same⟩
            contradiction
          refine .pending (receiving'.trans receives) ?_ ?_ fun ep => ?_
          · rw [completes_append]
            rintro (complete | ⟨_, succeeds | fails⟩)
            · exact open_ complete
            · exact not_succeeds_append (fun _ => id) succeeds
            · exact open_ ⟨h, List.prefix_refl _, alive, .inr ((fails_append fun ep _ =>
                quiet ep).mp fails)⟩
          · refine List.forall_mem_append.mpr ⟨alive, List.forall_mem_singleton.mpr ?_⟩
            rintro ⟨_, same⟩
            contradiction
          · rw [handleAsyncTimeout_stateOf, entries, entry_other id (quiet ep)]
      | aborted receiving => rw [receives] at receiving; contradiction
      | answered receiving => rw [receives] at receiving; contradiction

theorem Receiving.received (chain : Receiving eps s h n) (sender : Ep) (hdr : UdtHdr)
    (len : Nat) :
    let t := s.step (.received sender hdr len)
    t.waiting = s.waiting ∧ ∃ m, Receiving eps t (h ++ [.received sender hdr len]) m ∧
      t.posted.length + n = s.posted.length + m := by
  intro t
  cases receives : s.receiving with
  | false =>
      have idle : t = s := if_neg (by rw [receives]; decide)
      rw [idle]
      exact ⟨rfl, n, chain.over receives receives, rfl⟩
  | true =>
      have handled : t = { s with receiving := false }.handleReceived sender hdr len :=
        if_pos receives
      cases chain with
      | aborted receiving => rw [receives] at receiving; contradiction
      | answered receiving => rw [receives] at receiving; contradiction
      | pending _ open_ alive entries =>
          obtain ⟨waiting, chains⟩ :=
            handleReceived_chains { s with receiving := false } sender hdr len
          have states := handleReceived_stateOf { s with receiving := false } sender hdr len
          rw [← handled] at waiting chains states
          have old : ∀ x, HpClt.stateOf { s with receiving := false } x = entry eps h x := entries
          simp only [old] at states
          have alive' : ∀ x ∈ h ++ [.received sender hdr len], ¬ x.AbortsReceive :=
            List.forall_mem_append.mpr ⟨alive, List.forall_mem_singleton.mpr
              (not_abortsReceive_received _ _ _)⟩
          have answer : Succeeds eps (h ++ [.received sender hdr len]) ↔
              ∃ state, entry eps h sender = some state ∧ state.hear hdr len = .established :=
            succeeds_received_iff hdr len sender
          refine ⟨waiting, ?_⟩
          rw [states sender, if_pos rfl] at chains
          rcases chains with ⟨done, receiving, posted⟩ | ⟨undone, receiving, posted⟩
          · obtain ⟨state, found, established⟩ := Option.map_eq_some_iff.mp done
            have succeeds := answer.mpr ⟨state, found, established⟩
            exact ⟨1, .answered receiving ⟨_, List.prefix_refl _, alive', .inl succeeds⟩, by
              rw [posted]⟩
          · refine ⟨0, .pending receiving ?_ alive' fun x => ?_, by rw [posted]⟩
            · rw [completes_append]
              rintro (complete | ⟨_, succeeds | fails⟩)
              · exact open_ complete
              · obtain ⟨state, found, established⟩ := answer.mp succeeds
                rw [found, Option.map_some, established] at undone
                exact undone rfl
              · exact open_ ⟨h, List.prefix_refl _, alive, .inr ((fails_append fun ep _ =>
                  not_failsAt_received ep sender hdr len).mp fails)⟩
            · rw [states x]
              by_cases same : x = sender
              · subst same
                rw [if_pos rfl]
                cases found : entry eps h x with
                | none =>
                    have lost := entry_eq_none_iff.mp found
                    rw [Option.map_none, eq_comm, entry_eq_none_iff]
                    exact fun kept => lost ⟨kept.1, (List.forall_mem_append.mp kept.2).1⟩
                | some state =>
                    rw [found, Option.map_some] at undone
                    rw [Option.map_some, entry_received hdr len found fun done => undone (by
                      rw [done])]
              · have notSyn : ¬ (Event.received sender hdr len).SynFrom x := by
                  rintro ⟨here, _⟩
                  exact same here
                rw [if_neg same, entry_other notSyn (not_failsAt_received x sender hdr len)]

omit [LinearOrder Ep] in
theorem failsAt_receiveError {error : HpError} (real : error ≠ .operationAborted) {sender x : Ep} :
    (Event.receiveError error sender).FailsAt x ↔ x = sender := by
  constructor
  · rintro ⟨_, _, same⟩
    injection same with _ same
    exact same.symm
  · rintro rfl
    exact ⟨error, real, rfl⟩

omit [LinearOrder Ep] in
/-- An error leaves the entries of the other candidates. -/
theorem entry_receiveError {error : HpError} (real : error ≠ .operationAborted) (sender x : Ep)
    [Decidable (x = sender)] : entry eps (h ++ [.receiveError error sender]) x =
      if x = sender then none else entry eps h x := by
  by_cases same : x = sender
  · rw [if_pos same, entry_eq_none_iff]
    rintro ⟨_, kept⟩
    exact kept (.receiveError error sender) (by simp) ((failsAt_receiveError real).mpr same)
  · rw [if_neg same, entry_other id fun fails => same ((failsAt_receiveError real).mp fails)]

omit [LinearOrder Ep] in
/-- The last candidate is lost when the entry just removed was the only one left. -/
theorem fails_receiveError_iff {error : HpError} (real : error ≠ .operationAborted) (sender : Ep)
    (open_ : ¬ Fails eps h) : Fails eps (h ++ [.receiveError error sender]) ↔
      entry eps h sender ≠ none ∧ ∀ x, entry eps (h ++ [.receiveError error sender]) x = none := by
  constructor
  · rintro ⟨some_, lost⟩
    have gone : ∀ x, entry eps (h ++ [.receiveError error sender]) x = none := by
      intro x
      rw [entry_eq_none_iff]
      rintro ⟨candidate, kept⟩
      obtain ⟨y, member, fails⟩ := lost x candidate
      exact kept y member fails
    refine ⟨fun absent => ?_, gone⟩
    refine open_ ⟨some_, fun ep candidate => ?_⟩
    obtain ⟨y, member, fails⟩ := lost ep candidate
    rcases List.mem_append.mp member with before | last
    · exact ⟨y, before, fails⟩
    · obtain rfl := List.mem_singleton.mp last
      obtain rfl := (failsAt_receiveError real).mp fails
      by_contra unlost
      push Not at unlost
      exact (entry_eq_none_iff.mp absent) ⟨candidate, unlost⟩
  · rintro ⟨present, gone⟩
    have candidate : sender ∈ eps := by
      by_contra stranger
      exact present (entry_eq_none_iff.mpr fun kept => stranger kept.1)
    refine ⟨List.ne_nil_of_mem candidate, fun ep candidate => ?_⟩
    by_contra unlost
    push Not at unlost
    exact (entry_eq_none_iff.mp (gone ep)) ⟨candidate, unlost⟩

theorem Receiving.receiveError (chain : Receiving eps s h n) (error : HpError) (sender : Ep) :
    let t := s.step (.receiveError error sender)
    t.waiting = s.waiting ∧ ∃ m, Receiving eps t (h ++ [.receiveError error sender]) m ∧
      t.posted.length + n = s.posted.length + m := by
  intro t
  cases receives : s.receiving with
  | false =>
      have idle : t = s := if_neg (by rw [receives]; decide)
      rw [idle]
      exact ⟨rfl, n, chain.over receives receives, rfl⟩
  | true =>
      cases chain with
      | aborted receiving => rw [receives] at receiving; contradiction
      | answered receiving => rw [receives] at receiving; contradiction
      | pending _ open_ alive entries =>
          have unlost : ¬ Fails eps h := fun fails =>
            open_ ⟨h, List.prefix_refl _, alive, .inr fails⟩
          by_cases real : error = .operationAborted
          · subst real
            have handled : t = { s with receiving := false } := (if_pos receives).trans (if_pos rfl)
            have last : Event.receiveError .operationAborted sender ∈
              h ++ [.receiveError .operationAborted sender] := by simp
            rw [handled]
            refine ⟨rfl, 0, .aborted rfl ?_ ⟨_, last, sender, rfl⟩, rfl⟩
            rw [completes_append]
            rintro (complete | ⟨alive', _⟩)
            · exact open_ complete
            · exact alive' _ last ⟨sender, rfl⟩
          have handled : t = { s with receiving := false }.handleReceiveError error sender :=
            (if_pos receives).trans (if_neg real)
          obtain ⟨waiting, chains⟩ :=
            handleReceiveError_chains { s with receiving := false } error sender
          have states := handleReceiveError_stateOf { s with receiving := false } error sender
          rw [← handled] at waiting chains states
          have old : ∀ x, HpClt.stateOf { s with receiving := false } x = entry eps h x := entries
          have states' : ∀ x, t.stateOf x = entry eps (h ++ [.receiveError error sender]) x := by
            intro x
            rw [states, old, entry_receiveError real]
          have alive' : ∀ x ∈ h ++ [.receiveError error sender], ¬ x.AbortsReceive := by
            refine List.forall_mem_append.mpr ⟨alive, List.forall_mem_singleton.mpr ?_⟩
            rintro ⟨_, same⟩
            injection same with same
            exact real same
          refine ⟨waiting, ?_⟩
          simp only [states', old, ← fails_receiveError_iff real sender unlost] at chains
          rcases chains with ⟨fails, receiving, posted⟩ | ⟨left, receiving, posted⟩
          · exact ⟨1, .answered receiving ⟨_, List.prefix_refl _, alive', .inr fails⟩, by
              rw [posted]⟩
          · refine ⟨0, .pending receiving ?_ alive' states', by rw [posted]⟩
            rw [completes_append]
            rintro (complete | ⟨_, succeeds | fails⟩)
            · exact open_ complete
            · exact not_succeeds_append (fun _ => id) succeeds
            · exact left fails

end Receiving

section Run

variable [LinearOrder Ep] {eps : List Ep}

/-- The two chains of a request, each with its notices, account for all that are posted. -/
structure Answers (eps : List Ep) (s : HpClt Ep) (h : List (Event Ep)) (n m : Nat) : Prop where
  receiving : Receiving eps s h n
  countdown : Countdown s h m
  posted : s.posted.length = n + m

theorem asyncHolePunch_answers (handler : Nat) (eps : List Ep) :
    Answers eps ((init : HpClt Ep).asyncHolePunch handler eps) [] 0 0 := by
  refine ⟨.pending rfl ?_ (fun _ member => by contradiction) fun ep => ?_,
    .counting rfl (by rw [List.countP_nil]; decide) fun _ member => by contradiction, rfl⟩
  · rintro ⟨h, before, _, ends⟩
    obtain rfl := List.prefix_nil.mp before
    rcases ends with ⟨_, _, ⟨_, last, _⟩, _⟩ | ⟨some_, lost⟩
    · contradiction
    · obtain ⟨ep, candidate⟩ := List.exists_mem_of_ne_nil eps some_
      obtain ⟨_, member, _⟩ := lost ep candidate
      contradiction
  · rw [asyncHolePunch_stateOf]
    unfold entry
    simp

theorem step_answers {s : HpClt Ep} {n m : Nat} (answers : Answers eps s h n m) (e : Event Ep) :
    ∃ n' m', Answers eps (s.step e) (h ++ [e]) n' m' := by
  obtain ⟨receiving, countdown, posted⟩ := answers
  cases e with
  | received sender hdr len =>
      obtain ⟨waiting, n', receiving', posted'⟩ := receiving.received sender hdr len
      exact ⟨n', m, receiving', countdown.other waiting rfl, by omega⟩
  | receiveError error sender =>
      obtain ⟨waiting, n', receiving', posted'⟩ := receiving.receiveError error sender
      exact ⟨n', m, receiving', countdown.other waiting rfl, by omega⟩
  | timeout error =>
      obtain ⟨m', countdown', posted'⟩ := countdown.timeout error
      exact ⟨n, m', receiving.timeout error, countdown', by
        change (s.handleAsyncTimeout error).posted.length = n + m'
        omega⟩

theorem run_answers {s : HpClt Ep} {n m : Nat} (answers : Answers eps s h n m)
    (es : List (Event Ep)) : ∃ n' m', Answers eps (s.run es) (h ++ es) n' m' := by
  induction es generalizing s h n m with
  | nil =>
      rw [List.append_nil]
      exact ⟨n, m, answers⟩
  | cons e es ih =>
      obtain ⟨n', m', first⟩ := step_answers answers e
      obtain ⟨n'', m'', rest⟩ := ih first
      rw [List.append_assoc] at rest
      exact ⟨n'', m'', rest⟩

/-- After one call of `async_hole_punch` the handler is posted at most once exactly when the
candidates do not answer or the countdown does not come to its end. -/
theorem notified_once_iff (handler : Nat) (eps : List Ep) (es : List (Event Ep)) :
    (((init : HpClt Ep).asyncHolePunch handler eps).run es).posted.length ≤ 1 ↔
      ¬ (Completes eps es ∧ Expires es) := by
  obtain ⟨n, m, receiving, countdown, posted⟩ :=
    run_answers (asyncHolePunch_answers handler eps) es
  rw [List.nil_append] at receiving countdown
  rw [receiving.completes_iff, countdown.expires_iff, posted]
  have once : n ≤ 1 ∧ m ≤ 1 := by
    constructor
    · cases receiving <;> decide
    · cases countdown <;> decide
  omega

end Run

/-- A candidate answers with SYN and ACK, and then the timer runs to its end. -/
def answeredThenTimedOut : List (Event Nat) :=
  .received 5 (EndpointInfo.prepareSendPeerData (UdtHdr.TH_SYN ||| UdtHdr.TH_ACK)) UdtHdr.size ::
    List.replicate DFT_TIMEOUT_COUNT (.timeout .success)

theorem notified_twice :
    ((init.asyncHolePunch 7 [5]).run answeredThenTimedOut).posted =
        [⟨7, .success, [5]⟩, ⟨7, .timedOut, [5]⟩] ∧
      ¬ ∀ es : List (Event Nat), ((init.asyncHolePunch 7 [5]).run es).posted.length ≤ 1 := by
  refine ⟨by decide +kernel, fun once => ?_⟩
  exact absurd (once answeredThenTimedOut) (by decide +kernel)

end HpClt
end UdtBoost
