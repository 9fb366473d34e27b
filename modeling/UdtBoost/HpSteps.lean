import UdtBoost.HpClt

/-! What each completion does to the entries of a hole-punch client, to its two chains of
asynchronous operations and to what it sends. -/
namespace UdtBoost

namespace HpState

/-- What a packet of `len` bytes makes of the state of its sender's entry. -/
def hear (state : HpState) (hdr : UdtHdr) (len : Nat) : HpState :=
  if len ≠ UdtHdr.size ∨ hasHp hdr.flags = false ∨ state = .established then state
  else (EndpointInfo.respond ⟨none, state⟩ hdr).state

end HpState

theorem EndpointInfo.respond_state (info : EndpointInfo) (hdr : UdtHdr) :
    (info.respond hdr).state = (EndpointInfo.respond ⟨none, info.state⟩ hdr).state := by
  obtain ⟨_, state⟩ := info
  unfold respond needOutput
  cases hasSyn hdr.flags <;> cases hasAck hdr.flags <;> cases state <;> rfl

theorem EndpointInfo.prepare_state (info : EndpointInfo) : info.prepare.state = info.state := by
  cases state : info.state <;> simp [prepare, state]

namespace HpClt

variable {Ep : Type} [LinearOrder Ep] {s : HpClt Ep} {ep x : Ep}

/-- The state of an entry. -/
def stateOf (s : HpClt Ep) (ep : Ep) : Option HpState := (s.find ep).map EndpointInfo.state

theorem find_map_key (l : List (Ep × EndpointInfo)) (f : Ep × EndpointInfo → Ep × EndpointInfo)
    (key : ∀ peer, (f peer).1 = peer.1) (x : Ep) :
    (l.map f).find? (·.1 = x) = (l.find? (·.1 = x)).map f := by
  rw [List.find?_map]
  congr 2
  funext peer
  rw [Function.comp_apply, key]

theorem find_key {peer : Ep × EndpointInfo} {l : List (Ep × EndpointInfo)}
    (found : l.find? (·.1 = x) = some peer) : peer.1 = x := by
  simpa using List.find?_some found

theorem output_stateOf (s : HpClt Ep) (x : Ep) : s.output.stateOf x = s.stateOf x := by
  have peers : s.output.peerEps = s.peerEps.map fun peer => (peer.1, peer.2.prepare) := rfl
  rw [stateOf, stateOf, find, find, peers, 
    find_map_key _ (fun peer => (peer.1, peer.2.prepare)) fun _ => rfl, Option.map_map,
    Option.map_map, Option.map_map]
  congr 1
  funext peer
  exact peer.2.prepare_state

theorem setPeer_stateOf {old info : EndpointInfo} (found : s.find ep = some old) (x : Ep) :
    (s.setPeer ep info).stateOf x = if x = ep then some info.state else s.stateOf x := by
  have key : ∀ peer : Ep × EndpointInfo,
      (if peer.1 = ep then (ep, info) else peer).1 = peer.1 := by
    intro peer
    split
    · exact Eq.symm ‹_›
    · rfl
  unfold stateOf find setPeer at *
  rw [find_map_key _ _ key]
  cases entry : s.peerEps.find? (·.1 = x) with
  | none =>
      by_cases same : x = ep
      · rw [← same, entry] at found
        contradiction
      · rw [if_neg same]
        rfl
  | some peer =>
      have at_ := find_key entry
      by_cases same : x = ep
      · rw [if_pos same]
        simp [at_, same]
      · rw [if_neg same]
        simp [at_, same]

theorem erase_stateOf (s : HpClt Ep) (ep x : Ep) :
    (s.erase ep).stateOf x = if x = ep then none else s.stateOf x := by
  unfold stateOf find erase
  rw [List.find?_filter]
  by_cases same : x = ep
  · rw [if_pos same]
    have none_ : s.peerEps.find? (fun peer => decide (peer.1 ≠ ep ∧ decide (peer.1 = x) = true)) =
        none := by
      rw [List.find?_eq_none]
      intro peer _
      simp [same]
    simpa using none_
  · rw [if_neg same]
    congr 3
    funext peer
    by_cases here : peer.1 = x
    · simp [here, same]
    · simp [here]

theorem peerEps_eq_nil_iff (s : HpClt Ep) : s.peerEps = [] ↔ ∀ x, s.stateOf x = none := by
  constructor
  · intro empty x
    rw [stateOf, find, empty]
    rfl
  · intro absent
    cases peers : s.peerEps with
    | nil => rfl
    | cons peer rest =>
        have first := absent peer.1
        rw [stateOf, find, peers, List.find?_cons_of_pos (by simp)] at first
        contradiction

theorem find_eq_none_iff : s.find ep = none ↔ s.stateOf ep = none := by
  rw [stateOf, Option.map_eq_none_iff]

theorem insertPeer_lookup (l : List (Ep × EndpointInfo)) (ep x : Ep) :
    ((insertPeer ep l).find? (·.1 = x)).map (·.2.state) =
      if x = ep then some .synSent else (l.find? (·.1 = x)).map (·.2.state) := by
  induction l with
  | nil =>
      rw [insertPeer]
      by_cases same : x = ep
      · simp [same]
      · simp [same, Ne.symm same]
  | cons peer rest ih =>
      rw [insertPeer]
      split
      case isTrue =>
        by_cases same : x = ep
        · simp [same]
        · rw [List.find?_cons_of_neg (by simpa using Ne.symm same), if_neg same]
      case isFalse =>
        split
        case isTrue here =>
          by_cases same : x = ep
          · simp [same]
          · rw [List.find?_cons_of_neg (by simpa [← here] using Ne.symm same), if_neg same,
              List.find?_cons_of_neg (by simpa [← here] using Ne.symm same)]
        case isFalse other =>
          by_cases first : peer.1 = x
          · have apart : x ≠ ep := fun same => other (same.symm.trans first.symm)
            rw [List.find?_cons_of_pos (by simpa using first), if_neg apart,
              List.find?_cons_of_pos (by simpa using first)]
          · rw [List.find?_cons_of_neg (by simpa using first), ih,
              List.find?_cons_of_neg (by simpa using first)]

/-- Every candidate starts at `TCPS_SYN_SENT`. -/
theorem asyncHolePunch_stateOf (handler : Nat) (eps : List Ep) (x : Ep) :
    ((init : HpClt Ep).asyncHolePunch handler eps).stateOf x =
      if x ∈ eps then some .synSent else none := by
  have inserted : ∀ (eps : List Ep) (l : List (Ep × EndpointInfo)),
      ((eps.foldl (fun peers ep => insertPeer ep peers) l).find? (·.1 = x)).map (·.2.state) =
        if x ∈ eps then some .synSent else (l.find? (·.1 = x)).map (·.2.state) := by
    intro eps
    induction eps with
    | nil => exact fun l => rfl
    | cons ep eps ih =>
        intro l
        rw [List.foldl_cons, ih, insertPeer_lookup]
        by_cases later : x ∈ eps <;> by_cases same : x = ep <;> simp [later, same]
  have peers : (((init : HpClt Ep).asyncHolePunch handler eps).stateOf x) =
      ({ (init : HpClt Ep) with
        handler, peerEps := eps.foldl (fun peers ep => insertPeer ep peers) [] }.output).stateOf x :=
    rfl
  rw [peers, output_stateOf, stateOf, find, Option.map_map]
  exact inserted eps []

theorem handlePeerResp_chains (s : HpClt Ep) (ep : Ep) (info : EndpointInfo) (hdr : UdtHdr)
    (len : Nat) : (s.handlePeerResp ep info hdr len).receiving = s.receiving ∧
      (s.handlePeerResp ep info hdr len).waiting = s.waiting ∧
      (s.handlePeerResp ep info hdr len).posted = s.posted := by
  unfold handlePeerResp
  split
  · exact ⟨rfl, rfl, rfl⟩
  · split
    · exact ⟨rfl, rfl, rfl⟩
    · cases info.needOutput hdr <;> exact ⟨rfl, rfl, rfl⟩

theorem handlePeerResp_stateOf {info : EndpointInfo} (found : s.find ep = some info)
    (hdr : UdtHdr) (len : Nat) (x : Ep) : (s.handlePeerResp ep info hdr len).stateOf x =
      if x = ep then some (info.state.hear hdr len) else s.stateOf x := by
  have old : s.stateOf ep = some info.state := by rw [stateOf, found]; rfl
  have kept : s.stateOf x = if x = ep then some info.state else s.stateOf x := by
    by_cases same : x = ep
    · rw [if_pos same, same, old]
    · rw [if_neg same]
  have set_ : (s.setPeer ep (info.respond hdr)).stateOf x =
      if x = ep then some (info.respond hdr).state else s.stateOf x := setPeer_stateOf found x
  rw [EndpointInfo.respond_state] at set_
  unfold handlePeerResp
  by_cases bad : len ≠ UdtHdr.size ∨ hasHp hdr.flags = false
  · have deaf : info.state.hear hdr len = info.state := if_pos (by tauto)
    rw [if_pos bad, deaf]
    exact kept
  rw [if_neg bad]
  by_cases done : info.state = .established
  · have deaf : info.state.hear hdr len = info.state := if_pos (by tauto)
    rw [if_pos done, deaf]
    exact kept
  have heard : info.state.hear hdr len = (EndpointInfo.respond ⟨none, info.state⟩ hdr).state :=
    if_neg (by tauto)
  rw [if_neg done, heard, ← set_]
  dsimp only
  split
  · rw [output_stateOf]
  · rfl

theorem handleReceived_stateOf (s : HpClt Ep) (ep : Ep) (hdr : UdtHdr) (len : Nat) (x : Ep) :
    (s.handleReceived ep hdr len).stateOf x =
      if x = ep then (s.stateOf ep).map (·.hear hdr len) else s.stateOf x := by
  unfold handleReceived
  cases found : s.find ep with
  | none =>
      have absent := find_eq_none_iff.mp found
      by_cases same : x = ep
      · rw [if_pos same, absent, same]
        exact absent
      · rw [if_neg same]
        rfl
  | some info =>
      have state := handlePeerResp_stateOf found hdr len x
      have old : s.stateOf ep = some info.state := by rw [stateOf, found]; rfl
      rw [old]
      dsimp only
      split <;> exact state

/-- The receive chain ends with the packet that establishes its sender's entry. -/
theorem handleReceived_chains (s : HpClt Ep) (ep : Ep) (hdr : UdtHdr) (len : Nat) :
    let t := s.handleReceived ep hdr len
    t.waiting = s.waiting ∧
      (t.stateOf ep = some .established ∧ t.receiving = s.receiving ∧
          t.posted.length = s.posted.length + 1 ∨
        t.stateOf ep ≠ some .established ∧ t.receiving = true ∧
          t.posted.length = s.posted.length) := by
  cases found : s.find ep with
  | none =>
      have result : s.handleReceived ep hdr len = s.asyncReceive := by rw [handleReceived, found]
      have absent : s.asyncReceive.stateOf ep = none := find_eq_none_iff.mp found
      rw [result]
      refine ⟨rfl, .inr ⟨?_, rfl, rfl⟩⟩
      rw [absent]
      exact Option.some_ne_none _ |>.symm
  | some info =>
      obtain ⟨receiving, waiting, posted⟩ := s.handlePeerResp_chains ep info hdr len
      have result : s.handleReceived ep hdr len =
          if (s.handlePeerResp ep info hdr len).stateOf ep = some .established then
            (s.handlePeerResp ep info hdr len).notify
          else (s.handlePeerResp ep info hdr len).asyncReceive := by
        rw [handleReceived, found]
        rfl
      by_cases done : (s.handlePeerResp ep info hdr len).stateOf ep = some .established
      · rw [result, if_pos done]
        refine ⟨waiting, .inl ⟨done, receiving, ?_⟩⟩
        rw [notify, List.length_append, posted]
        rfl
      · rw [result, if_neg done]
        exact ⟨waiting, .inr ⟨done, rfl, congrArg List.length posted⟩⟩

/-- An error removes the endpoint it names; the chain ends with the last one. -/
theorem handleReceiveError_stateOf (s : HpClt Ep) (e : HpError) (ep x : Ep) :
    (s.handleReceiveError e ep).stateOf x = if x = ep then none else s.stateOf x := by
  have erased := s.erase_stateOf ep x
  unfold handleReceiveError
  cases found : s.find ep with
  | none =>
      have absent := find_eq_none_iff.mp found
      by_cases same : x = ep
      · rw [if_pos same, same]
        exact absent
      · rw [if_neg same]
        rfl
  | some info =>
      dsimp only
      split <;> exact erased

theorem handleReceiveError_chains (s : HpClt Ep) (e : HpError) (ep : Ep) :
    let t := s.handleReceiveError e ep
    t.waiting = s.waiting ∧
      ((s.stateOf ep ≠ none ∧ ∀ x, t.stateOf x = none) ∧ t.receiving = s.receiving ∧
          t.posted.length = s.posted.length + 1 ∨
        ¬ (s.stateOf ep ≠ none ∧ ∀ x, t.stateOf x = none) ∧ t.receiving = true ∧
          t.posted.length = s.posted.length) := by
  intro t
  have after : ∀ x, t.stateOf x = (s.erase ep).stateOf x := fun x =>
    (s.handleReceiveError_stateOf e ep x).trans (s.erase_stateOf ep x).symm
  have empty := (s.erase ep).peerEps_eq_nil_iff
  simp only [← after] at empty
  rw [← empty, ne_eq, ← find_eq_none_iff]
  cases found : s.find ep with
  | none =>
      have result : t = s.asyncReceive := by
        change s.handleReceiveError e ep = _
        rw [handleReceiveError, found]
      rw [result]
      exact ⟨rfl, .inr ⟨fun removed => removed.1 rfl, rfl, rfl⟩⟩
  | some info =>
      have result : t = if (s.erase ep).peerEps = [] then
          { s.erase ep with lastError := e }.notify else (s.erase ep).asyncReceive := by
        change s.handleReceiveError e ep = _
        rw [handleReceiveError, found]
      by_cases last : (s.erase ep).peerEps = []
      · rw [result, if_pos last]
        refine ⟨rfl, .inl ⟨⟨Option.some_ne_none _, last⟩, rfl, ?_⟩⟩
        rw [notify, List.length_append]
        rfl
      · rw [result, if_neg last]
        exact ⟨rfl, .inr ⟨fun removed => last removed.2, rfl, rfl⟩⟩

/-- The timer's chain ends when nothing is left to count down, or when the wait is aborted. -/
theorem handleAsyncTimeout_stateOf (s : HpClt Ep) (e : HpError) (x : Ep) :
    (s.handleAsyncTimeout e).stateOf x = s.stateOf x := by
  unfold handleAsyncTimeout
  cases s.waiting with
  | none => rfl
  | some n =>
      dsimp only
      split
      · rfl
      · unfold asyncWait
        split <;> exact output_stateOf { s with waiting := none } x

omit [LinearOrder Ep] in
theorem handleAsyncTimeout_receiving (s : HpClt Ep) (e : HpError) :
    (s.handleAsyncTimeout e).receiving = s.receiving := by
  unfold handleAsyncTimeout asyncWait
  cases s.waiting with
  | none => rfl
  | some n =>
      dsimp only
      split
      · rfl
      · split <;> rfl

omit [LinearOrder Ep] in
theorem handleAsyncTimeout_waiting (s : HpClt Ep) (e : HpError) (n : Nat)
    (waiting : s.waiting = some n) :
    let t := s.handleAsyncTimeout e
    if e = .operationAborted then t.waiting = none ∧ t.posted.length = s.posted.length
    else if n ≤ 1 then t.waiting = none ∧ t.posted.length = s.posted.length + 1
    else t.waiting = some (n - 1) ∧ t.posted.length = s.posted.length := by
  intro t
  have result : t = if e = .operationAborted then { s with waiting := none }
      else { s with waiting := none }.output.asyncWait (n - 1) := by
    change s.handleAsyncTimeout e = _
    rw [handleAsyncTimeout, waiting]
  by_cases aborted : e = .operationAborted
  · rw [if_pos aborted, result, if_pos aborted]
    exact ⟨rfl, rfl⟩
  rw [if_neg aborted, result, if_neg aborted, asyncWait]
  by_cases last : n ≤ 1
  · rw [if_pos last, if_pos (by omega)]
    refine ⟨rfl, ?_⟩
    rw [notify, List.length_append]
    rfl
  · rw [if_neg last, if_neg (by omega)]
    exact ⟨rfl, rfl⟩

end HpClt
end UdtBoost
