import UdtBoost.Invariant

/-! What is known of every segment `output` has sent. While the connection is not yet
synchronized our numbers stay near the initial one, since each segment starts over there. -/
namespace UdtBoost

namespace TcpState

theorem syn_cases {state : TcpState} (syn : hasSyn state.outflags = true) :
    state = synSent ∨ state = synReceived := by
  cases state <;> first | exact .inl rfl | exact .inr rfl | exact absurd syn (by decide)

theorem syn_of_acked {state : TcpState} {sentfin : Bool}
    (syn : hasSyn (state.acked sentfin).outflags = true) : hasSyn state.outflags = true := by
  cases state <;> cases sentfin <;> first | rfl | exact absurd syn (by decide)

theorem syn_of_finned {state : TcpState} (syn : hasSyn state.finned.outflags = true) :
    hasSyn state.outflags = true := by
  cases state <;> first | rfl | exact absurd syn (by decide)

end TcpState

theorem Core.outputFlags_syn_fin (c : Core) (endSeq : Word) (syn : hasSyn c.state.outflags = true) :
    hasFin (c.outputFlags endSeq) = false := by
  unfold outputFlags
  rcases TcpState.syn_cases syn with state | state <;> rw [state] <;> split <;> rfl

namespace Core

/-- A segment with a SYN carries at most 65535 bytes, so nothing is numbered far past it. -/
def SynNear (c : Core) : Prop :=
  hasSyn c.state.outflags = true →
    (c.sndUna - c.iss).toNat ≤ (c.sndMax - c.iss).toNat ∧
      (c.sndMax - c.iss).toNat ≤ 65537 ∧ (c.sndNxt - c.iss).toNat ≤ 65537

theorem SynNear.of_plain {c : Core} (sent : c.state ≠ .synSent) (received : c.state ≠ .synReceived) :
    c.SynNear :=
  fun syn => ((TcpState.syn_cases syn).elim sent received).elim

end Core

/-- A number `m_snd_nxt` may be put back to. -/
def NearIss (v : View) (nxt : Word) : Prop :=
  hasSyn v.state.outflags = true → (nxt - v.iss).toNat ≤ 65537

theorem pktLen_le (pkt : Option UdtPacket) : (Conn.pktLen pkt).toNat ≤ 65535 := by
  cases pkt with
  | none => exact Nat.zero_le _
  | some p =>
      have small : p.hdr.len.toNat < 65536 := p.hdr.len.isLt
      have wide : (Conn.pktLen (some p)).toNat = p.hdr.len.toNat := by
        rw [Conn.pktLen, Option.map_some, Option.getD_some, BitVec.toNat_setWidth]
        omega
      omega

theorem seqMax_cases (new old : Word) : seqMax new old = new ∧ seqGt new old ∨
    seqMax new old = old ∧ seqLe new old := by
  unfold seqMax
  split
  · next above => exact .inl ⟨rfl, above⟩
  · next below => exact .inr ⟨rfl, not_not.mp below⟩

theorem Sends.synNear {c c' : Core} {pkt : Option UdtPacket} {nxt : Word} {t : Transmission}
    (sends : Sends c pkt nxt t c') (near : c.SynNear) : c'.SynNear := by
  intro syn
  have state : c'.state = c.state := by rw [sends.moved]
  rw [state] at syn
  obtain ⟨una, max, _⟩ := near syn
  have isSyn : hasSyn t.hdr.flags = true := by rw [sends.flags, Core.outputFlags_syn, syn]
  have noFin : hasFin t.hdr.flags = false := by rw [sends.flags, Core.outputFlags_syn_fin _ _ syn]
  have start : c.rewound t.hdr.flags nxt = c.iss := by simp [Core.rewound, isSyn, noFin]
  have len := pktLen_le pkt
  rw [sends.moved]
  simp only [start, synLen, finLen, isSyn, noFin, if_true, Bool.false_eq_true, if_false]
  generalize Conn.pktLen pkt = l at len ⊢
  cases t.forced with
  | true =>
      rcases seqMax_cases (c.iss + l) c.sndMax with ⟨raised, above⟩ | ⟨same, _⟩
      · rw [seqGt_iff] at above
        simp only [if_true, raised]
        refine ⟨?_, ?_, ?_⟩ <;> bv_omega
      · simp only [if_true, same]
        exact ⟨una, max, by bv_omega⟩
  | false =>
      rcases seqMax_cases (c.iss + 1 + 0 + l) c.sndMax with ⟨raised, above⟩ | ⟨same, _⟩
      · rw [seqGt_iff] at above
        simp only [Bool.false_eq_true, if_false, raised]
        refine ⟨?_, ?_, ?_⟩ <;> bv_omega
      · simp only [Bool.false_eq_true, if_false, same]
        exact ⟨una, max, by bv_omega⟩

theorem Step.synNear {v w : View} {a : Act} (step : Step v a w) (near : v.SynNear)
    (legal : ∀ nxt, a = .restore nxt → NearIss v nxt) : w.SynNear := by
  cases step with
  | transmit _ _ sends => exact sends.synNear near
  | rewind =>
      intro syn
      obtain ⟨una, max, _⟩ := near syn
      exact ⟨una, max, una.trans max⟩
  | skip _ _ noSyn => exact fun syn => absurd (noSyn.symm.trans syn) (by simp)
  | restore =>
      intro syn
      obtain ⟨una, max, _⟩ := near syn
      exact ⟨una, max, legal _ rfl syn⟩
  | @ack p dropped rest above sent =>
      intro syn
      obtain ⟨una, max, nxt⟩ := near syn
      rw [seqGt_iff] at above
      rw [seqLe_iff] at sent
      dsimp only
      have inside : (p.hdr.ack - v.iss).toNat ≤ (v.sndMax - v.iss).toNat := by bv_omega
      refine ⟨inside, max, ?_⟩
      split
      · exact inside.trans max
      · exact nxt
  | ackAll => exact fun syn => near (TcpState.syn_of_acked syn)
  | syn state =>
      intro _
      rcases state with listen | sent | received
      · simp [listen]
      · have near := near (by rw [sent]; rfl)
        simpa [sent] using near
      · have near := near (by rw [received]; rfl)
        simpa [received] using near
  | fin => exact fun syn => near (TcpState.syn_of_finned syn)
  | closed => exact .of_plain (by simp) (by simp)
  | connect => exact fun _ => by simp
  | accept => exact .of_plain (by simp) (by simp)
  | shutdown =>
      intro syn
      dsimp only at syn
      split_ifs at syn
      · exact absurd syn (by decide)
      · exact absurd syn (by decide)
      · exact near syn
  | close => exact .of_plain (by simp) (by simp)
  | _ => exact near

/-- Unlabelled steps keep the initial number, and the state unless they close it. -/
theorem ViewPath.tau_state {v w : View} (path : ViewPath OnlyTau v w) :
    w.iss = v.iss ∧ (w.state = v.state ∨ w.state = .closed) := by
  refine path.invariant (I := fun u => u.iss = v.iss ∧ (u.state = v.state ∨ u.state = .closed))
    ⟨rfl, .inl rfl⟩ ?_
  intro u a x same tau step
  obtain rfl : a = .tau := tau
  cases step with
  | transmit _ _ sends =>
      rw [sends.moved]
      exact same
  | closed => exact ⟨same.1, .inr rfl⟩
  | _ => exact same

/-- What is known of the history: each segment and each call of `output` came about as the
code says, and the numbers were near the initial one where they had to be. -/
structure View.Logged (v : View) : Prop where
  near : v.SynNear
  sent : ∀ t ∈ v.sent, t.Real ∧ t.before.core.SynNear
  calls : ∀ k ∈ v.calls, k.Real ∧ ∀ t ∈ k.sent, t ∈ v.sent

theorem Step.logged {v w : View} {a : Act} (step : Step v a w) (log : v.Logged)
    (legal : ∀ nxt, a = .restore nxt → NearIss v nxt) : w.Logged := by
  have near := step.synNear log.near legal
  cases step with
  | @transmit c' pkt nxt t chosen alive sends real =>
      refine ⟨near, ?_, ?_⟩
      · intro x member
        rcases List.mem_append.mp member with old | new
        · exact log.sent x old
        · obtain rfl : x = t := by simpa using new
          exact ⟨real, by rw [sends.before]; exact log.near⟩
      · intro k member
        obtain ⟨isReal, inside⟩ := log.calls k member
        exact ⟨isReal, fun x here => List.mem_append_left _ (inside x here)⟩
  | @record k real inside =>
      refine ⟨near, log.sent, ?_⟩
      intro x member
      rcases List.mem_append.mp member with old | new
      · exact log.calls x old
      · obtain rfl : x = k := by simpa using new
        exact ⟨real, inside⟩
  | _ => exact ⟨near, log.sent, log.calls⟩

/-- The number `m_snd_nxt` is put back to after a fast retransmit. -/
theorem Core.SynNear.restored {u w : View} (near : u.SynNear)
    (path : ViewPath OnlyTau { u with sndNxt := u.sndUna } w) : NearIss w u.sndNxt := by
  intro syn
  obtain ⟨iss, state⟩ := path.tau_state
  rcases state with same | closed
  · rw [same] at syn
    rw [iss]
    exact (near syn).2.2
  · rw [closed] at syn
    exact absurd syn (by decide)

theorem loggedRule : Restores (fun _ _ => True) NearIss View.Logged where
  keep _ _ _ log met step := step.logged log met.2
  restore _ _ log path := log.near.restored path

namespace Endpoint

theorem run_logged (fack sndSeq rcvSeq : Word) (env : Env) (es : List Event) :
    ((init fack sndSeq rcvSeq env).run es).view.Logged :=
  (run_invariant_restores es (init_calm fack sndSeq rcvSeq env) loggedRule
    ⟨.of_plain (by simp [view, init, UdtCb.init, Conn.core]) (by simp [view, init, UdtCb.init, Conn.core]), by simp [view, init], by simp [view, init]⟩).2

end Endpoint

end UdtBoost
