import UdtBoost.HpNotify
import UdtBoost.Trace

/-! Hole punching between any number of parties, each at its own address. A packet once sent may be
delivered any number of times, at any later time and in any order, or never. -/
namespace UdtBoost

open HpClt

/-- The parties by their addresses, and what each has received. -/
structure HpNet (Addr : Type) where
  party : Addr → HpClt Addr
  /-- Who has called `async_hole_punch`. -/
  called : Addr → Bool
  /-- Sender, receiver and header of every packet handed to `handle_async_receive`. -/
  received : List (Addr × Addr × UdtHdr)

namespace HpNet

variable {Addr : Type} [LinearOrder Addr]

inductive Act (Addr : Type) where
  | call (a : Addr) (handler : Nat) (eps : List Addr)
  | deliver (src dst : Addr) (hdr : UdtHdr)
  | timeout (a : Addr) (e : HpError)

/-- Each party calls once, and only what was sent is delivered. -/
def Act.Enabled (n : HpNet Addr) : Act Addr → Prop
  | .call a _ _ => n.called a = false
  | .deliver src dst hdr =>
      (dst, hdr) ∈ (n.party src).sent ∧ (n.party dst).receiving = true
  | .timeout _ _ => True

def next (n : HpNet Addr) : Act Addr → HpNet Addr
  | .call a handler eps =>
      { n with
        party := Function.update n.party a ((n.party a).asyncHolePunch handler eps)
        called := Function.update n.called a true }
  | .deliver src dst hdr =>
      { n with
        party := Function.update n.party dst
          ((n.party dst).step (.received src hdr UdtHdr.size))
        received := n.received ++ [(src, dst, hdr)] }
  | .timeout a e => { n with party := Function.update n.party a ((n.party a).step (.timeout e)) }

def init : HpNet Addr := ⟨fun _ => HpClt.init, fun _ => false, []⟩

def run (n : HpNet Addr) (acts : List (Act Addr)) : HpNet Addr := acts.foldl next n

/-- The acts can happen in this order. -/
def Possible (n : HpNet Addr) (acts : List (Act Addr)) : Prop :=
  Trace.Meets next (fun n act => act.Enabled n) n acts

/-- `a` has received a SYN from `b`. -/
def HeardSyn (n : HpNet Addr) (a b : Addr) : Prop :=
  ∃ hdr, (b, a, hdr) ∈ n.received ∧ hasSyn hdr.flags = true

end HpNet

namespace HpClt

variable {Ep : Type} [LinearOrder Ep] {s : HpClt Ep} {ep x : Ep}

/-- The entry is past `TCPS_SYN_SENT`. -/
def Passed (s : HpClt Ep) (ep : Ep) : Prop :=
  s.stateOf ep = some .synReceived ∨ s.stateOf ep = some .established

/-- What holds of a party's own entries and packets: an ACK is sent only past `TCPS_SYN_SENT`. -/
structure Honest (s : HpClt Ep) : Prop where
  found : ∀ peer ∈ s.peerEps, s.stateOf peer.1 = some peer.2.state
  opened : ∀ peer ∈ s.peerEps,
    peer.2.state = .synSent ∨ peer.2.state = .synReceived ∨ peer.2.state = .established
  acked : ∀ p ∈ s.sent, hasAck p.2.flags = true → s.Passed p.1

theorem respond_opened {info : EndpointInfo} (hdr : UdtHdr)
    (opened : info.state = .synSent ∨ info.state = .synReceived ∨ info.state = .established) :
    (info.respond hdr).state = .synSent ∨ (info.respond hdr).state = .synReceived ∨
      (info.respond hdr).state = .established := by
  rw [EndpointInfo.respond_state]
  unfold EndpointInfo.respond EndpointInfo.needOutput
  rcases opened with state | state | state <;> rw [state] <;> cases hasSyn hdr.flags <;>
    cases hasAck hdr.flags <;> simp

theorem respond_passed {info : EndpointInfo} (hdr : UdtHdr)
    (passed : info.state = .synReceived ∨ info.state = .established) :
    (info.respond hdr).state = .synReceived ∨ (info.respond hdr).state = .established := by
  rw [EndpointInfo.respond_state]
  unfold EndpointInfo.respond EndpointInfo.needOutput
  rcases passed with state | state <;> rw [state] <;> cases hasSyn hdr.flags <;>
    cases hasAck hdr.flags <;> simp

theorem hear_passed {state : HpState} (passed : state = .synReceived ∨ state = .established)
    (hdr : UdtHdr) (len : Nat) :
    state.hear hdr len = .synReceived ∨ state.hear hdr len = .established := by
  unfold HpState.hear
  split
  · exact passed
  · exact respond_passed hdr passed

/-- Only a SYN takes an entry past `TCPS_SYN_SENT`, and only an ACK establishes it. -/
theorem hear_syn {hdr : UdtHdr} {len : Nat}
    (passed : HpState.hear .synSent hdr len = .synReceived ∨
      HpState.hear .synSent hdr len = .established) : hasSyn hdr.flags = true := by
  unfold HpState.hear EndpointInfo.respond EndpointInfo.needOutput at passed
  by_contra silent
  rw [Bool.not_eq_true] at silent
  simp [silent] at passed

theorem hear_ack {state : HpState} {hdr : UdtHdr} {len : Nat} (pending : state ≠ .established)
    (done : state.hear hdr len = .established) : hasAck hdr.flags = true := by
  unfold HpState.hear at done
  split at done
  · exact absurd done pending
  · unfold EndpointInfo.respond EndpointInfo.needOutput at done
    by_contra silent
    rw [Bool.not_eq_true] at silent
    cases syn : hasSyn hdr.flags <;> cases state <;> simp [silent, syn] at done pending

theorem Passed.received {sender : Ep} (passed : s.Passed x) (hdr : UdtHdr) (len : Nat) :
    (s.handleReceived sender hdr len).Passed x := by
  unfold Passed at *
  rw [handleReceived_stateOf]
  by_cases same : x = sender
  · subst same
    rw [if_pos rfl]
    rcases passed with old | old
    · rw [old, Option.map_some, Option.some_inj, Option.some_inj]
      exact hear_passed (.inl rfl) hdr len
    · rw [old, Option.map_some, Option.some_inj, Option.some_inj]
      exact hear_passed (.inr rfl) hdr len
  · rw [if_neg same]
    exact passed

omit [LinearOrder Ep] in
theorem mem_output_sent {p : Ep × UdtHdr} (member : p ∈ s.output.sent) : p ∈ s.sent ∨
    ∃ peer ∈ s.peerEps, p.1 = peer.1 ∧ peer.2.prepare.sndBuf = some p.2 := by
  rcases List.mem_append.mp member with old | new
  · exact .inl old
  · obtain ⟨prepared, among, copies⟩ := List.mem_flatMap.mp new
    obtain ⟨peer, entry, rfl⟩ := List.mem_map.mp among
    right
    refine ⟨peer, entry, ?_⟩
    cases buf : peer.2.prepare.sndBuf with
    | none =>
        rw [buf] at copies
        contradiction
    | some hdr =>
        rw [buf] at copies
        obtain rfl := List.eq_of_mem_replicate copies
        exact ⟨rfl, rfl⟩

/-- Only an entry past `TCPS_SYN_SENT` is sent an ACK. -/
theorem prepare_acked {info : EndpointInfo} {hdr : UdtHdr}
    (opened : info.state = .synSent ∨ info.state = .synReceived ∨ info.state = .established)
    (prepared : info.prepare.sndBuf = some hdr) (ack : hasAck hdr.flags = true) :
    info.state = .synReceived ∨ info.state = .established := by
  rcases opened with syn | passed
  · rw [EndpointInfo.prepare, syn] at prepared
    obtain rfl := Option.some.inj prepared
    exact absurd ack (by decide)
  · exact passed

theorem Honest.output (honest : s.Honest) : s.output.Honest := by
  obtain ⟨found, opened, acked⟩ := honest
  have entries : ∀ peer ∈ s.output.peerEps, ∃ old ∈ s.peerEps, peer = (old.1, old.2.prepare) := by
    intro peer member
    obtain ⟨old, member', rfl⟩ := List.mem_map.mp member
    exact ⟨old, member', rfl⟩
  refine ⟨?_, ?_, ?_⟩
  · intro peer member
    obtain ⟨old, member', rfl⟩ := entries peer member
    rw [output_stateOf, EndpointInfo.prepare_state]
    exact found old member'
  · intro peer member
    obtain ⟨old, member', rfl⟩ := entries peer member
    rw [EndpointInfo.prepare_state]
    exact opened old member'
  · intro p member ack
    unfold Passed
    rw [output_stateOf]
    rcases mem_output_sent member with old | ⟨peer, member', key, prepared⟩
    · exact acked p old ack
    · rw [key, found peer member', Option.some_inj, Option.some_inj]
      exact prepare_acked (opened peer member') prepared ack

theorem Honest.setPeer {info : EndpointInfo} (honest : s.Honest) (known : s.find ep = some info)
    (hdr : UdtHdr) : (s.setPeer ep (info.respond hdr)).Honest := by
  obtain ⟨found, opened, acked⟩ := honest
  have states : ∀ x, (s.setPeer ep (info.respond hdr)).stateOf x =
      if x = ep then some (info.respond hdr).state else s.stateOf x := setPeer_stateOf known
  have old : s.stateOf ep = some info.state := by rw [stateOf, known]; rfl
  obtain ⟨entry, first, same⟩ := Option.map_eq_some_iff.mp known
  have listed := List.mem_of_find?_eq_some first
  have valid := opened entry listed
  rw [same] at valid
  refine ⟨?_, ?_, ?_⟩
  · intro peer member
    obtain ⟨before, member', rfl⟩ := List.mem_map.mp member
    rw [states]
    by_cases here : before.1 = ep
    · simp [here]
    · simp [here, found before member']
  · intro peer member
    obtain ⟨before, member', rfl⟩ := List.mem_map.mp member
    by_cases here : before.1 = ep
    · rw [if_pos here]
      exact respond_opened hdr valid
    · rw [if_neg here]
      exact opened before member'
  · intro p member ack
    have passed := acked p member ack
    unfold Passed at *
    rw [states]
    by_cases here : p.1 = ep
    · rw [here, old, Option.some_inj, Option.some_inj] at passed
      rw [if_pos here, Option.some_inj, Option.some_inj]
      exact respond_passed hdr passed
    · rw [if_neg here]
      exact passed

theorem Honest.received (honest : s.Honest) (sender : Ep) (hdr : UdtHdr) (len : Nat) :
    (s.handleReceived sender hdr len).Honest := by
  unfold handleReceived
  cases known : s.find sender with
  | none => exact ⟨honest.found, honest.opened, honest.acked⟩
  | some info =>
      have handled : (s.handlePeerResp sender info hdr len).Honest := by
        unfold handlePeerResp
        split
        · exact honest
        · split
          · exact honest
          · have set_ := honest.setPeer known hdr
            dsimp only
            split
            · exact set_.output
            · exact set_
      dsimp only
      split
      · exact ⟨handled.found, handled.opened, handled.acked⟩
      · exact ⟨handled.found, handled.opened, handled.acked⟩

theorem Honest.timeout (honest : s.Honest) (e : HpError) : (s.handleAsyncTimeout e).Honest := by
  unfold handleAsyncTimeout asyncWait
  cases s.waiting with
  | none => exact honest
  | some n =>
      have idle : HpClt.Honest { s with waiting := none } :=
        ⟨honest.found, honest.opened, honest.acked⟩
      dsimp only
      split
      · exact idle
      · split
        · exact ⟨idle.output.found, idle.output.opened, idle.output.acked⟩
        · exact ⟨idle.output.found, idle.output.opened, idle.output.acked⟩

theorem insertPeer_synSent {l : List (Ep × EndpointInfo)}
    (fresh : ∀ peer ∈ l, peer.2.state = .synSent) :
    ∀ peer ∈ insertPeer ep l, peer.2.state = .synSent := by
  induction l with
  | nil =>
      intro peer member
      obtain rfl := List.mem_singleton.mp member
      rfl
  | cons first rest ih =>
      obtain ⟨head, tail⟩ := List.forall_mem_cons.mp fresh
      rw [insertPeer]
      split
      · exact List.forall_mem_cons.mpr ⟨rfl, fresh⟩
      · split
        · exact List.forall_mem_cons.mpr ⟨rfl, tail⟩
        · exact List.forall_mem_cons.mpr ⟨head, ih tail⟩

theorem insertPeers_synSent (eps : List Ep) {l : List (Ep × EndpointInfo)}
    (fresh : ∀ peer ∈ l, peer.2.state = .synSent) :
    ∀ peer ∈ eps.foldl (fun peers ep => insertPeer ep peers) l, peer.2.state = .synSent := by
  induction eps generalizing l with
  | nil => exact fresh
  | cons ep eps ih => exact ih (insertPeer_synSent fresh)

theorem asyncHolePunch_honest (handler : Nat) (eps : List Ep) :
    ((HpClt.init : HpClt Ep).asyncHolePunch handler eps).Honest := by
  have fresh := insertPeers_synSent eps (l := []) fun _ member => by contradiction
  have created : HpClt.Honest { (HpClt.init : HpClt Ep) with
      handler, peerEps := eps.foldl (fun peers ep => insertPeer ep peers) [] } := by
    refine ⟨fun peer member => ?_, fun peer member => .inl (fresh peer member),
      fun _ member => by contradiction⟩
    rw [fresh peer member, stateOf, find, Option.map_map]
    cases entry : (eps.foldl (fun peers ep => insertPeer ep peers) []).find?
      (·.1 = peer.1) with
    | none =>
        have absent := List.find?_eq_none.mp entry peer member
        simp at absent
    | some other => exact congrArg some (fresh other (List.mem_of_find?_eq_some entry))
  exact ⟨created.output.found, created.output.opened, created.output.acked⟩

end HpClt

namespace HpNet

variable {Addr : Type} [LinearOrder Addr] {n : HpNet Addr} {a b : Addr}

/-- The parties are honest, and past `TCPS_SYN_SENT` each has heard the other's SYN. -/
structure Agreed (n : HpNet Addr) : Prop where
  honest : ∀ a, (n.party a).Honest
  fresh : ∀ a, n.called a = false → n.party a = HpClt.init
  heard : ∀ a b, (n.party a).Passed b → n.HeardSyn a b
  answered : ∀ a b, (n.party a).stateOf b = some .established → (n.party b).Passed a

theorem init_agreed : (init : HpNet Addr).Agreed := by
  refine ⟨fun _ => ⟨?_, ?_, ?_⟩, fun _ _ => rfl, ?_, ?_⟩
  · exact fun _ member => by contradiction
  · exact fun _ member => by contradiction
  · exact fun _ member => by contradiction
  · rintro a b (state | state) <;> contradiction
  · intro a b state
    contradiction

/-- A party is changed by its own acts only. -/
theorem next_party_of_ne {act : Act Addr} (call : ∀ handler eps, act ≠ .call a handler eps)
    (deliver : ∀ src hdr, act ≠ .deliver src a hdr) (timeout : ∀ e, act ≠ .timeout a e) :
    (n.next act).party a = n.party a := by
  cases act with
  | call c handler eps =>
      refine Function.update_of_ne ?_ _ _
      rintro rfl
      exact call handler eps rfl
  | deliver src dst hdr =>
      refine Function.update_of_ne ?_ _ _
      rintro rfl
      exact deliver src hdr rfl
  | timeout c e =>
      refine Function.update_of_ne ?_ _ _
      rintro rfl
      exact timeout e rfl

theorem next_deliver {src : Addr} {hdr : UdtHdr} (receiving : (n.party a).receiving = true) :
    (n.next (.deliver src a hdr)).party a =
      { n.party a with receiving := false }.handleReceived src hdr UdtHdr.size :=
  (Function.update_self _ _ _).trans (if_pos receiving)

/-- What is past `TCPS_SYN_SENT` stays there. -/
theorem next_passed (agreed : n.Agreed) (act : Act Addr) (enabled : act.Enabled n)
    (passed : (n.party a).Passed b) : ((n.next act).party a).Passed b := by
  by_cases call : ∃ handler eps, act = .call a handler eps
  · obtain ⟨handler, eps, rfl⟩ := call
    rw [agreed.fresh a enabled] at passed
    rcases passed with state | state <;> contradiction
  by_cases deliver : ∃ src hdr, act = .deliver src a hdr
  · obtain ⟨src, hdr, rfl⟩ := deliver
    rw [next_deliver enabled.2]
    exact Passed.received (s := { n.party a with receiving := false }) passed hdr UdtHdr.size
  by_cases timeout : ∃ e, act = .timeout a e
  · obtain ⟨e, rfl⟩ := timeout
    have party : (n.next (.timeout a e)).party a = (n.party a).handleAsyncTimeout e :=
      Function.update_self _ _ _
    rw [party]
    unfold Passed
    rw [handleAsyncTimeout_stateOf]
    exact passed
  · push Not at call deliver timeout
    rw [next_party_of_ne call deliver timeout]
    exact passed

theorem next_honest (agreed : n.Agreed) (act : Act Addr) (enabled : act.Enabled n) (a : Addr) :
    ((n.next act).party a).Honest := by
  by_cases call : ∃ handler eps, act = .call a handler eps
  · obtain ⟨handler, eps, rfl⟩ := call
    have party : (n.next (.call a handler eps)).party a =
      (n.party a).asyncHolePunch handler eps := Function.update_self _ _ _
    rw [party, agreed.fresh a enabled]
    exact asyncHolePunch_honest handler eps
  by_cases deliver : ∃ src hdr, act = .deliver src a hdr
  · obtain ⟨src, hdr, rfl⟩ := deliver
    obtain ⟨found, opened, acked⟩ := agreed.honest a
    rw [next_deliver enabled.2]
    exact Honest.received (s := { n.party a with receiving := false }) ⟨found, opened, acked⟩ src
      hdr UdtHdr.size
  by_cases timeout : ∃ e, act = .timeout a e
  · obtain ⟨e, rfl⟩ := timeout
    have party : (n.next (.timeout a e)).party a = (n.party a).handleAsyncTimeout e :=
      Function.update_self _ _ _
    rw [party]
    exact (agreed.honest a).timeout e
  · push Not at call deliver timeout
    rw [next_party_of_ne call deliver timeout]
    exact agreed.honest a

/-- Where an entry gets past `TCPS_SYN_SENT`, or is established, in one act. -/
theorem next_stateOf (agreed : n.Agreed) (act : Act Addr) (enabled : act.Enabled n) (a b : Addr)
    (passed : ((n.next act).party a).Passed b) :
    ((n.next act).party a).stateOf b = (n.party a).stateOf b ∨
      ∃ hdr state, act = .deliver b a hdr ∧ (n.party a).stateOf b = some state ∧
        ((n.next act).party a).stateOf b = some (state.hear hdr UdtHdr.size) := by
  by_cases call : ∃ handler eps, act = .call a handler eps
  · obtain ⟨handler, eps, rfl⟩ := call
    have party : (n.next (.call a handler eps)).party a =
      (n.party a).asyncHolePunch handler eps := Function.update_self _ _ _
    unfold Passed at passed
    rw [party, agreed.fresh a enabled, asyncHolePunch_stateOf] at passed
    split at passed <;> simp at passed
  by_cases deliver : ∃ src hdr, act = .deliver src a hdr
  · obtain ⟨src, hdr, rfl⟩ := deliver
    have states := handleReceived_stateOf { n.party a with receiving := false } src hdr
      UdtHdr.size b
    rw [← next_deliver enabled.2] at states
    by_cases same : b = src
    · subst same
      rw [if_pos rfl] at states
      cases old : (n.party a).stateOf b with
      | none =>
          have old' : HpClt.stateOf { n.party a with receiving := false } b = none := old
          rw [old', Option.map_none] at states
          exact .inl states
      | some state =>
          have old' : HpClt.stateOf { n.party a with receiving := false } b = some state := old
          rw [old', Option.map_some] at states
          exact .inr ⟨hdr, state, rfl, rfl, states⟩
    · rw [if_neg same] at states
      exact .inl states
  by_cases timeout : ∃ e, act = .timeout a e
  · obtain ⟨e, rfl⟩ := timeout
    have party : (n.next (.timeout a e)).party a = (n.party a).handleAsyncTimeout e :=
      Function.update_self _ _ _
    rw [party, handleAsyncTimeout_stateOf]
    exact .inl rfl
  · push Not at call deliver timeout
    rw [next_party_of_ne call deliver timeout]
    exact .inl rfl

theorem next_received (act : Act Addr) : ∀ p ∈ n.received, p ∈ (n.next act).received := by
  intro p member
  cases act with
  | call => exact member
  | deliver => exact List.mem_append_left _ member
  | timeout => exact member

theorem next_fresh (agreed : n.Agreed) (act : Act Addr) (enabled : act.Enabled n) (a : Addr)
    (idle : (n.next act).called a = false) : (n.next act).party a = HpClt.init := by
  have before : n.called a = false := by
    cases act with
    | call c handler eps =>
        by_cases same : a = c
        · subst same
          rw [show (n.next (.call a handler eps)).called a = true from
            Function.update_self _ _ _] at idle
          contradiction
        · exact (Function.update_of_ne same _ _).symm.trans idle
    | deliver => exact idle
    | timeout => exact idle
  have fresh := agreed.fresh a before
  by_cases timeout : ∃ e, act = .timeout a e
  · obtain ⟨e, rfl⟩ := timeout
    have party : (n.next (.timeout a e)).party a = (n.party a).handleAsyncTimeout e :=
      Function.update_self _ _ _
    rw [party, fresh]
    rfl
  push Not at timeout
  rw [next_party_of_ne ?_ ?_ timeout]
  · exact fresh
  · rintro handler eps rfl
    rw [show (n.next (.call a handler eps)).called a = true from
      Function.update_self _ _ _] at idle
    contradiction
  · rintro src hdr rfl
    have receiving := enabled.2
    rw [fresh] at receiving
    contradiction

theorem next_agreed (agreed : n.Agreed) (act : Act Addr) (enabled : act.Enabled n) :
    (n.next act).Agreed := by
  refine ⟨next_honest agreed act enabled, next_fresh agreed act enabled, ?_, ?_⟩
  · intro a b passed
    by_cases before : (n.party a).Passed b
    · obtain ⟨hdr, member, syn⟩ := agreed.heard a b before
      exact ⟨hdr, next_received act _ member, syn⟩
    rcases next_stateOf agreed act enabled a b passed with same | ⟨hdr, state, rfl, old, new⟩
    · unfold Passed at passed
      rw [same] at passed
      exact absurd passed before
    · refine ⟨hdr, List.mem_append_right _ (List.mem_singleton_self _), ?_⟩
      obtain ⟨entry, first, rfl⟩ := Option.map_eq_some_iff.mp old
      obtain ⟨peer, listed, rfl⟩ := Option.map_eq_some_iff.mp first
      have opened := (agreed.honest a).opened peer (List.mem_of_find?_eq_some listed)
      have synSent : peer.2.state = .synSent := by
        rcases opened with syn | past
        · exact syn
        · refine absurd ?_ before
          unfold Passed
          rw [old, Option.some_inj, Option.some_inj]
          exact past
      unfold Passed at passed
      rw [new, Option.some_inj, Option.some_inj, synSent] at passed
      exact hear_syn passed
  · intro a b done
    by_cases before : (n.party a).stateOf b = some .established
    · exact next_passed agreed act enabled (agreed.answered a b before)
    rcases next_stateOf agreed act enabled a b (.inr done) with same | ⟨hdr, state, rfl, old, new⟩
    · rw [same] at done
      exact absurd done before
    · rw [new, Option.some_inj] at done
      have pending : state ≠ .established := by
        rintro rfl
        exact before old
      exact next_passed agreed _ enabled
        ((agreed.honest b).acked _ enabled.1 (hear_ack pending done))

theorem run_agreed (agreed : n.Agreed) {acts : List (Act Addr)} (possible : n.Possible acts) :
    (n.run acts).Agreed :=
  possible.invariant agreed fun _ act agreed enabled => next_agreed agreed act enabled

theorem run_passed (agreed : n.Agreed) {acts : List (Act Addr)} (possible : n.Possible acts)
    (passed : (n.party a).Passed b) : ((n.run acts).party a).Passed b :=
  (possible.invariant (I := fun n => n.Agreed ∧ (n.party a).Passed b) ⟨agreed, passed⟩
    fun _ act holds enabled =>
      ⟨next_agreed holds.1 act enabled, next_passed holds.1 act enabled holds.2⟩).2

/-- When `a` has established its entry for `b`, each has received a SYN from the other, and from
then on the entry of `b` for `a` is past `TCPS_SYN_SENT`. -/
theorem hole_punch_agrees (acts : List (Act Addr)) (possible : init.Possible acts) (a b : Addr)
    (established : ((init.run acts).party a).stateOf b = some .established) :
    (init.run acts).HeardSyn a b ∧ (init.run acts).HeardSyn b a ∧
      ∀ more, (init.run acts).Possible more →
        (((init.run acts).run more).party b).stateOf a = some .synReceived ∨
          (((init.run acts).run more).party b).stateOf a = some .established := by
  have agreed := run_agreed init_agreed possible
  have passed := agreed.answered a b established
  exact ⟨agreed.heard a b (.inr established), agreed.heard b a passed,
    fun more later => run_passed agreed later passed⟩

/-- Two parties call, and the second answers the first one's SYN. -/
def twoParties : List (Act Nat) :=
  [.call 1 7 [2], .call 2 8 [1],
    .deliver 1 2 (EndpointInfo.prepareSendPeerData UdtHdr.TH_SYN),
    .deliver 2 1 (EndpointInfo.prepareSendPeerData (UdtHdr.TH_SYN ||| UdtHdr.TH_ACK))]

theorem hole_punch_agrees_two : (init.run twoParties).HeardSyn 2 1 :=
  (hole_punch_agrees twoParties
    ⟨rfl, rfl, ⟨by decide +kernel, rfl⟩, ⟨by decide +kernel, rfl⟩, trivial⟩ 1 2
    (by decide +kernel)).2.1

end HpNet
end UdtBoost
