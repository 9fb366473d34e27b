import UdtBoost.Defs
import UdtBoost.Trace

/-! `udt_mtu.h` and `udt_mtu.cpp`: probing the path MTU with echo requests that must not be
fragmented. The answers of the socket and of the network are arbitrary. -/
namespace UdtBoost

/-- The error codes the prober compares or sets. -/
inductive MtuError where
  | success | operationAborted | timedOut | noBufferSpace | networkUnreachable | hostUnreachable
  | notFound | invalidUserBuffer | other (code : Nat)
  deriving DecidableEq, Repr

/-- Where the prober stands: a probe is prepared and not sent, a reply is awaited, nothing is left
to do, or `prepare_data` has thrown or written behind `snd_buffer_`. -/
inductive MtuPhase where
  | sending | waiting | idle | lengthError | overrun
  deriving DecidableEq, Repr

structure UdtMtu where
  currentMtuIdx : Nat
  mtu : Word
  mtuHint : Word
  lastError : MtuError
  /-- `tracker_` is set. -/
  tracked : Bool
  sndBuffer : List UChar
  rcvBuffer : List UChar
  phase : MtuPhase
  /-- The values of `mtu_` that `prepare_data` has settled on. -/
  probes : List Word
  /-- The arguments of every posted call of the handler. -/
  posted : List (MtuError × Word)
  deriving DecidableEq, Repr

namespace UdtMtu

def IPHDR_SIZE_BYTE : Nat := 20
def ICMPHDR_SIZE_BYTE : Nat := 8
def RCV_BUFFER_SIZE_BYTE : Nat := 2000
def DEFAULT_SEND_COUNT : Nat := 3

def ICMP_ECHOREPLY : UChar := 0
def ICMP_UNREACH : UChar := 3
def ICMP_UNREACH_NET : UChar := 0
def ICMP_UNREACH_HOST : UChar := 1
def ICMP_UNREACH_PROTOCOL : UChar := 2
def ICMP_UNREACH_PORT : UChar := 3
def ICMP_UNREACH_NEEDFRAG : UChar := 4
def ICMP_UNREACH_HOST_UNKNOWN : UChar := 7

/-- `PACKET_MAXIMUMS`, with its end marker. -/
def PACKET_MAXIMUMS : List Word := [1500, 1492, 1006, 576, 544, 512, 508, 296, 68, 0]

/-- The echo request; the checksum is what the buffer held. -/
def icmpHeader (cksum : List UChar) : List UChar := [8, 0] ++ cksum ++ [4, 210, 4, 210]

/-- `create` on a new object. -/
def create : UdtMtu where
  currentMtuIdx := 0
  mtu := 0
  mtuHint := 0
  lastError := .success
  tracked := true
  sndBuffer := []
  rcvBuffer := List.replicate RCV_BUFFER_SIZE_BYTE 0
  phase := .idle
  probes := []
  posted := []

/-- `cancel`: what is outstanding finds its tracker expired. -/
def cancel (s : UdtMtu) : UdtMtu :=
  { s with tracked := false, lastError := .operationAborted, phase := .idle }

def notify (s : UdtMtu) : UdtMtu :=
  let s := s.cancel
  { s with posted := s.posted ++ [(s.lastError, s.mtu)] }

/-- The size of the next probe and the index it leaves, without the final increment. -/
def nextMtu (s : UdtMtu) : Option (Word × Nat) :=
  if s.mtuHint ≠ 0 then
    some (s.mtuHint, PACKET_MAXIMUMS.findIdx (· ≤ s.mtuHint))
  else (PACKET_MAXIMUMS[s.currentMtuIdx]?).map (·, s.currentMtuIdx)

/-- `snd_buffer_.resize`. -/
def resize (buf : List UChar) (n : Nat) : List UChar :=
  buf.take n ++ List.replicate (n - buf.length) 0

/-- The buffer and the header of a probe of `mtu` bytes. A size that wraps is more than
`snd_buffer_` can have. -/
def writeProbe (s : UdtMtu) (mtu : Word) (idx : Nat) : UdtMtu :=
  let s := { s with mtu, currentMtuIdx := idx, probes := s.probes ++ [mtu] }
  let size := mtu - BitVec.ofNat 32 IPHDR_SIZE_BYTE
  if mtu < BitVec.ofNat 32 IPHDR_SIZE_BYTE then { s with phase := .lengthError }
  else
    let buf := resize s.sndBuffer size.toNat
    if size < BitVec.ofNat 32 ICMPHDR_SIZE_BYTE then { s with sndBuffer := buf, phase := .overrun }
    else
      { s with
        sndBuffer := icmpHeader ((buf.drop 2).take 2) ++ buf.drop ICMPHDR_SIZE_BYTE
        currentMtuIdx := idx + 1, phase := .sending }

/-- `prepare_data`; `none` is its `false`. -/
def prepareData (s : UdtMtu) : Option UdtMtu := s.nextMtu.map fun (mtu, idx) => s.writeProbe mtu idx

/-- `send_echo` up to its `send_to` calls. -/
def sendEcho (s : UdtMtu) : UdtMtu := s.prepareData.getD s.notify

/-- `async_recv_reply`. -/
def asyncRecvReply (s : UdtMtu) : UdtMtu := { s with phase := .waiting }

/-- The rest of `send_echo`, from the `send_to` calls with these results; each overwrites `e`. -/
def sent (s : UdtMtu) (results : Fin DEFAULT_SEND_COUNT → MtuError) : UdtMtu :=
  match results (Fin.last _) with
  | .success => s.asyncRecvReply
  | .invalidUserBuffer => s.sendEcho
  | e => { s with lastError := e }.notify

/-- `async_probe_mtu`. -/
def asyncProbeMtu (s : UdtMtu) : UdtMtu := s.sendEcho

/-- The type, the code and `icmp_nextmtu` behind an IP header, when there are that many bytes. -/
def icmpOf (buf : List UChar) : Option (UChar × UChar × Word) :=
  match buf.drop IPHDR_SIZE_BYTE with
  | type :: code :: _ :: _ :: _ :: _ :: hi :: lo :: _ =>
      some (type, code, (hi ++ lo).setWidth 32)
  | _ => none

/-- `last_error_` after an unreachable message of another code. -/
def unreachError (lastError : MtuError) (code : UChar) : MtuError :=
  if code = ICMP_UNREACH_NET then .networkUnreachable
  else if code = ICMP_UNREACH_HOST then .hostUnreachable
  else if code = ICMP_UNREACH_PROTOCOL then .notFound
  else if code = ICMP_UNREACH_PORT then .hostUnreachable
  else if code = ICMP_UNREACH_HOST_UNKNOWN then lastError
  else .timedOut

/-- `handle_recv`, with what was received at the head of `rcv_buffer_`. -/
def handleRecv (s : UdtMtu) (e : MtuError) (received : List UChar) : UdtMtu :=
  if s.tracked = false then s
  else if e = .operationAborted then { s with phase := .idle }
  else
    let s := { s with rcvBuffer := received ++ s.rcvBuffer.drop received.length }
    if e = .success then
      match icmpOf received with
      | some (type, code, nextmtu) =>
          if type = ICMP_ECHOREPLY ∧ code = 0 then s.notify
          else if type = ICMP_UNREACH then
            if code = ICMP_UNREACH_NEEDFRAG then { s with mtuHint := nextmtu }.sendEcho
            else { s with lastError := unreachError s.lastError code }.notify
          else s.notify
      | none =>
          if received.length < ICMPHDR_SIZE_BYTE then { s with lastError := .noBufferSpace }.notify
          else s.notify
    else s.notify

def handleTimeout (s : UdtMtu) (e : MtuError) : UdtMtu :=
  if s.tracked = false then s
  else if e = .operationAborted then s
  else { s with lastError := .timedOut }.notify

/-- What ends the wait: a datagram, an error of the socket other than an abort, or the timer. -/
inductive Reply where
  | received (datagram : List UChar)
  | failed (code : Nat)
  | timeout

/-- What the outside answers to a step: to sending, and to waiting. -/
structure Answer where
  sends : Fin DEFAULT_SEND_COUNT → MtuError
  reply : Reply

def answered (s : UdtMtu) : Reply → UdtMtu
  | .received datagram => s.handleRecv .success (datagram.take RCV_BUFFER_SIZE_BYTE)
  | .failed code => s.handleRecv (.other code) []
  | .timeout => s.handleTimeout .success

def step (s : UdtMtu) (a : Answer) : UdtMtu :=
  match s.phase with
  | .sending => s.sent a.sends
  | .waiting => s.answered a.reply
  | .idle | .lengthError | .overrun => s

def run (answers : Nat → Answer) : Nat → UdtMtu := Trace.states step create.asyncProbeMtu answers

/-- The next-hop MTU of a message that asks for smaller packets. -/
def Reply.nextHop : Reply → Option Word
  | .received datagram =>
      (icmpOf (datagram.take RCV_BUFFER_SIZE_BYTE)).bind fun (type, code, nextmtu) =>
        if type = ICMP_UNREACH ∧ code = ICMP_UNREACH_NEEDFRAG then some nextmtu else none
  | .failed _ | .timeout => none

/-- A probe the system refuses has its size from the table, with another before the end marker, and
a next-hop MTU is below the size it answers and leaves room for the headers. -/
def Admissible (s : UdtMtu) (a : Answer) : Prop :=
  match s.phase with
  | .sending =>
      a.sends (Fin.last _) = .invalidUserBuffer → s.mtuHint = 0 ∧ s.currentMtuIdx ≠ 9
  | .waiting =>
      ∀ hop, a.reply.nextHop = some hop →
        (hop = 0 → s.currentMtuIdx ≠ 9) ∧ (hop ≠ 0 → 28 ≤ hop.toNat ∧ hop < s.mtu)
  | .idle | .lengthError | .overrun => True

/-- The IP header and the ICMP header fit a probe of this size. -/
def Fits (mtu : Word) : Prop :=
  IPHDR_SIZE_BYTE ≤ mtu.toNat ∧ ICMPHDR_SIZE_BYTE ≤ (mtu - BitVec.ofNat 32 IPHDR_SIZE_BYTE).toNat

instance (mtu : Word) : Decidable (Fits mtu) := inferInstanceAs (Decidable (_ ∧ _))

/-- Probing is safe and ends. -/
structure Good (answers : Nat → Answer) : Prop where
  fits : ∀ n, ∀ mtu ∈ (run answers n).probes, Fits mtu
  decreasing : ∀ n, (run answers n).probes.Pairwise (· > ·)
  ends : ∃ n, (run answers n).phase = .idle ∧ (run answers n).posted.length = 1

variable {s : UdtMtu} {a : Answer} {answers : Nat → Answer} {mtu hop : Word} {idx : Nat}

theorem fits_iff : Fits mtu ↔ 28 ≤ mtu.toNat := by
  unfold Fits IPHDR_SIZE_BYTE ICMPHDR_SIZE_BYTE
  constructor
  · rintro ⟨fits, header⟩
    rw [BitVec.toNat_sub_of_le (by simpa [BitVec.le_def] using fits)] at header
    have : (BitVec.ofNat 32 20).toNat = 20 := rfl
    omega
  · intro fits
    have below : BitVec.ofNat 32 20 ≤ mtu := by
      simp [BitVec.le_def]
      omega
    rw [BitVec.toNat_sub_of_le below]
    have : (BitVec.ofNat 32 20).toNat = 20 := rfl
    omega

section Table

theorem maximums_decrease {i : Nat} {v w : Word} (first : PACKET_MAXIMUMS[i]? = some v)
    (second : PACKET_MAXIMUMS[i + 1]? = some w) : w < v := by
  have sorted : PACKET_MAXIMUMS.Pairwise (· > ·) := by decide
  obtain ⟨_, rfl⟩ := List.getElem?_eq_some_iff.mp first
  obtain ⟨_, rfl⟩ := List.getElem?_eq_some_iff.mp second
  exact List.pairwise_iff_getElem.mp sorted _ _ _ _ (Nat.lt_succ_self i)

/-- Only the end marker has no room for the headers. -/
theorem maximums_fit {i : Nat} (found : PACKET_MAXIMUMS[i]? = some mtu) (inside : i ≠ 9) :
    28 ≤ mtu.toNat := by
  have room : ∀ i : Fin 10, i.val ≠ 9 → 28 ≤ (PACKET_MAXIMUMS.get i).toNat := by decide
  obtain ⟨short, rfl⟩ := List.getElem?_eq_some_iff.mp found
  exact room ⟨i, short⟩ inside

/-- The index a hint moves to stands before smaller sizes only. -/
theorem maximums_after_hint {v : Word}
    (found : PACKET_MAXIMUMS[PACKET_MAXIMUMS.findIdx (· ≤ hop) + 1]? = some v) : v < hop := by
  have short : PACKET_MAXIMUMS.findIdx (· ≤ hop) < PACKET_MAXIMUMS.length := by
    apply List.findIdx_lt_length_of_exists
    exact ⟨0, by decide, by simp [BitVec.le_def]⟩
  have holds := List.findIdx_getElem (w := short)
  have less := maximums_decrease (List.getElem?_eq_getElem short) found
  have atMost := of_decide_eq_true holds
  simp only [BitVec.lt_def, BitVec.le_def] at less atMost ⊢
  omega

end Table

section Probe

@[simp] theorem writeProbe_probes : (s.writeProbe mtu idx).probes = s.probes ++ [mtu] := by
  unfold writeProbe
  dsimp only
  split_ifs <;> rfl

@[simp] theorem writeProbe_mtu : (s.writeProbe mtu idx).mtu = mtu := by
  unfold writeProbe
  dsimp only
  split_ifs <;> rfl

@[simp] theorem writeProbe_mtuHint : (s.writeProbe mtu idx).mtuHint = s.mtuHint := by
  unfold writeProbe
  dsimp only
  split_ifs <;> rfl

@[simp] theorem writeProbe_tracked : (s.writeProbe mtu idx).tracked = s.tracked := by
  unfold writeProbe
  dsimp only
  split_ifs <;> rfl

@[simp] theorem writeProbe_posted : (s.writeProbe mtu idx).posted = s.posted := by
  unfold writeProbe
  dsimp only
  split_ifs <;> rfl

/-- A probe with room for the headers is left to be sent. -/
theorem writeProbe_sending (fits : Fits mtu) :
    (s.writeProbe mtu idx).phase = .sending ∧ (s.writeProbe mtu idx).currentMtuIdx = idx + 1 := by
  have wraps : ¬ mtu < BitVec.ofNat 32 IPHDR_SIZE_BYTE := by
    have := fits.1
    simp only [BitVec.lt_def, IPHDR_SIZE_BYTE] at *
    simpa using this
  have short : ¬ mtu - BitVec.ofNat 32 IPHDR_SIZE_BYTE < BitVec.ofNat 32 ICMPHDR_SIZE_BYTE := by
    have := fits.2
    simp only [BitVec.lt_def, ICMPHDR_SIZE_BYTE] at *
    simpa using this
  unfold writeProbe
  simp only [wraps, short, if_false, and_self]

theorem sendEcho_cases : (s.nextMtu = none ∧ s.sendEcho = s.notify) ∨
    ∃ mtu idx, s.nextMtu = some (mtu, idx) ∧ s.sendEcho = s.writeProbe mtu idx := by
  unfold sendEcho prepareData
  cases next : s.nextMtu with
  | none => exact .inl ⟨rfl, rfl⟩
  | some probe => exact .inr ⟨probe.1, probe.2, rfl, rfl⟩

theorem nextMtu_of_hint (hinted : s.mtuHint ≠ 0) :
    s.nextMtu = some (s.mtuHint, PACKET_MAXIMUMS.findIdx (· ≤ s.mtuHint)) := by
  unfold nextMtu
  rw [if_pos hinted]

theorem nextMtu_of_table (unhinted : s.mtuHint = 0) :
    s.nextMtu = (PACKET_MAXIMUMS[s.currentMtuIdx]?).map (·, s.currentMtuIdx) := by
  unfold nextMtu
  rw [if_neg (not_not.mpr unhinted)]

end Probe

section Step

/-- The hint with which a step prepares another probe, when it does. -/
def hintOf (s : UdtMtu) (a : Answer) : Option Word :=
  match s.phase with
  | .sending => if a.sends (Fin.last _) = .invalidUserBuffer then some s.mtuHint else none
  | .waiting => a.reply.nextHop
  | .idle | .lengthError | .overrun => none

theorem answered_probe {reply : Reply} (tracked : s.tracked = true)
    (hint : reply.nextHop = some hop) :
    ∃ rcvBuffer, s.answered reply = { s with mtuHint := hop, rcvBuffer }.sendEcho := by
  cases reply with
  | failed code => cases hint
  | timeout => cases hint
  | received datagram =>
    obtain ⟨⟨type, code, nextmtu⟩, read, asks⟩ := Option.bind_eq_some_iff.mp hint
    dsimp only at asks
    split_ifs at asks with unreach
    obtain rfl := Option.some.inj asks
    obtain ⟨rfl, rfl⟩ := unreach
    unfold answered handleRecv
    simp only [tracked, read, Bool.true_eq_false, reduceCtorEq, if_false, if_true]
    exact ⟨_, rfl⟩

theorem answered_notify {reply : Reply} (tracked : s.tracked = true)
    (hint : reply.nextHop = none) :
    ∃ lastError rcvBuffer, s.answered reply = { s with lastError, rcvBuffer }.notify := by
  cases reply with
  | failed code =>
    unfold answered handleRecv
    simp only [tracked, Bool.true_eq_false, reduceCtorEq, if_false]
    exact ⟨_, _, rfl⟩
  | timeout =>
    unfold answered handleTimeout
    simp only [tracked, Bool.true_eq_false, reduceCtorEq, if_false]
    exact ⟨_, _, rfl⟩
  | received datagram =>
    unfold answered handleRecv
    simp only [tracked, Bool.true_eq_false, reduceCtorEq, if_false, if_true]
    cases read : icmpOf (datagram.take RCV_BUFFER_SIZE_BYTE) with
    | none =>
      dsimp only
      split_ifs
      · exact ⟨_, _, rfl⟩
      · exact ⟨_, _, rfl⟩
    | some message =>
      obtain ⟨type, code, nextmtu⟩ := message
      dsimp only
      split_ifs with echo unreach needfrag
      · exact ⟨_, _, rfl⟩
      · simp [Reply.nextHop, read, unreach, needfrag] at hint
      · exact ⟨_, _, rfl⟩
      · exact ⟨_, _, rfl⟩

theorem step_sending (phase : s.phase = .sending) : s.step a = s.sent a.sends := by
  unfold step
  rw [phase]

theorem step_waiting (phase : s.phase = .waiting) : s.step a = s.answered a.reply := by
  unfold step
  rw [phase]

theorem hintOf_active (hint : s.hintOf a = some hop) :
    s.phase = .sending ∧ a.sends (Fin.last _) = .invalidUserBuffer ∧ s.mtuHint = hop ∨
      s.phase = .waiting ∧ a.reply.nextHop = some hop := by
  unfold hintOf at hint
  split at hint
  · rename_i phase
    split_ifs at hint with refused
    exact .inl ⟨phase, refused, Option.some.inj hint⟩
  · rename_i phase
    exact .inr ⟨phase, hint⟩
  all_goals cases hint

theorem step_probe (tracked : s.tracked = true) (hint : s.hintOf a = some hop) :
    ∃ rcvBuffer, s.step a = { s with mtuHint := hop, rcvBuffer }.sendEcho := by
  rcases hintOf_active hint with ⟨phase, refused, rfl⟩ | ⟨phase, hint⟩
  · refine ⟨s.rcvBuffer, ?_⟩
    rw [step_sending phase]
    simp only [sent, refused]
  · rw [step_waiting phase]
    exact answered_probe tracked hint

/-- Without another probe a step waits for a reply or calls the handler. -/
theorem step_quiet (tracked : s.tracked = true) (active : s.phase = .sending ∨ s.phase = .waiting)
    (hint : s.hintOf a = none) : s.phase = .sending ∧ s.step a = s.asyncRecvReply ∨
      ∃ lastError rcvBuffer, s.step a = { s with lastError, rcvBuffer }.notify := by
  rcases active with phase | phase
  · have taken : a.sends (Fin.last _) ≠ .invalidUserBuffer := by
      simpa [hintOf, phase] using hint
    rw [step_sending phase]
    unfold sent
    split
    · exact .inl ⟨phase, rfl⟩
    · contradiction
    · exact .inr ⟨a.sends (Fin.last _), s.rcvBuffer, rfl⟩
  · have other : a.reply.nextHop = none := by simpa [hintOf, phase] using hint
    rw [step_waiting phase]
    exact .inr (answered_notify tracked other)

theorem step_rest (rests : ¬ (s.phase = .sending ∨ s.phase = .waiting)) : s.step a = s := by
  unfold step
  cases phase : s.phase with
  | sending => exact absurd (.inl phase) rests
  | waiting => exact absurd (.inr phase) rests
  | idle | lengthError | overrun => rfl

end Step

section Invariants

def Active (s : UdtMtu) : Prop := s.phase = .sending ∨ s.phase = .waiting

/-- What holds after any answers: the last probe has `mtu_` bytes, and a hint is that size. -/
structure Coherent (s : UdtMtu) : Prop where
  last : s.mtu ∈ s.probes.getLast?
  hint : s.mtuHint = 0 ∨ s.mtuHint = s.mtu
  tracked : s.Active → s.tracked = true

theorem Coherent.notify {lastError : MtuError} {rcvBuffer : List UChar} (coherent : s.Coherent) :
    { s with lastError, rcvBuffer }.notify.Coherent :=
  ⟨coherent.last, coherent.hint, by rintro (sending | waiting) <;> contradiction⟩

theorem Coherent.probe {rcvBuffer : List UChar} (coherent : s.Coherent) (active : s.Active) :
    { s with mtuHint := hop, rcvBuffer }.sendEcho.Coherent := by
  rcases sendEcho_cases (s := { s with mtuHint := hop, rcvBuffer }) with
    ⟨next, sent⟩ | ⟨mtu, idx, next, sent⟩
  · rw [sent]
    refine ⟨coherent.last, .inl ?_, by rintro (sending | waiting) <;> contradiction⟩
    by_contra hinted
    have hinted : hop ≠ 0 := hinted
    rw [nextMtu_of_hint hinted] at next
    cases next
  · rw [sent]
    refine ⟨by simp, ?_, fun _ => by simpa using coherent.tracked active⟩
    rw [writeProbe_mtuHint, writeProbe_mtu]
    by_cases unhinted : hop = 0
    · exact .inl unhinted
    · rw [nextMtu_of_hint unhinted] at next
      exact .inr (Prod.ext_iff.mp (Option.some.inj next)).1

theorem Coherent.step (coherent : s.Coherent) (a : Answer) : (s.step a).Coherent := by
  by_cases active : s.Active
  · cases hint : s.hintOf a with
    | some hop =>
      obtain ⟨rcvBuffer, probed⟩ := step_probe (coherent.tracked active) hint
      rw [probed]
      exact coherent.probe active
    | none =>
      rcases step_quiet (coherent.tracked active) active hint with
        ⟨sending, waits⟩ | ⟨lastError, rcvBuffer, notified⟩
      · rw [waits]
        exact ⟨coherent.last, coherent.hint, fun _ => coherent.tracked active⟩
      · rw [notified]
        exact coherent.notify
  · rw [step_rest active]
    exact coherent

theorem asyncProbeMtu_eq : create.asyncProbeMtu = create.writeProbe 1500 0 := rfl

theorem coherent_start : create.asyncProbeMtu.Coherent := by
  rw [asyncProbeMtu_eq]
  refine ⟨by simp, .inl ?_, fun _ => ?_⟩
  · rw [writeProbe_mtuHint]
    rfl
  · rw [writeProbe_tracked]
    rfl

theorem coherent_run (n : Nat) : (run answers n).Coherent :=
  Trace.states_invariant coherent_start (fun n coherent => coherent.step (answers n)) n

/-- What holds while every answer is admissible. -/
structure Descending (s : UdtMtu) : Prop extends Coherent s where
  fits : ∀ mtu ∈ s.probes, Fits mtu
  decreasing : s.probes.Pairwise (· > ·)
  /-- The table goes on below the last probe. -/
  table : ∀ v, PACKET_MAXIMUMS[s.currentMtuIdx]? = some v → v < s.mtu
  live : s.Active ∧ s.posted = [] ∨ s.phase = .idle ∧ s.posted.length = 1

theorem Coherent.above (coherent : s.Coherent) (decreasing : s.probes.Pairwise (· > ·))
    (less : mtu < s.mtu) : (s.probes ++ [mtu]).Pairwise (· > ·) := by
  obtain ⟨front, split⟩ := List.getLast?_eq_some_iff.mp coherent.last
  rw [split] at decreasing ⊢
  obtain ⟨-, -, before⟩ := List.pairwise_append.mp decreasing
  refine List.pairwise_append.mpr ⟨decreasing, List.pairwise_singleton _ _, ?_⟩
  rintro x earlier y last
  obtain rfl := List.mem_singleton.mp last
  rcases List.mem_append.mp earlier with earlier | last
  · have := before x earlier s.mtu (List.mem_singleton_self _)
    simp only [gt_iff_lt, BitVec.lt_def] at this less ⊢
    omega
  · obtain rfl := List.mem_singleton.mp last
    exact less

/-- The next probe is smaller and has room for the headers. -/
theorem Descending.next (descending : s.Descending) {rcvBuffer : List UChar}
    (met : (hop = 0 → s.currentMtuIdx ≠ 9) ∧ (hop ≠ 0 → 28 ≤ hop.toNat ∧ hop < s.mtu))
    (next : { s with mtuHint := hop, rcvBuffer }.nextMtu = some (mtu, idx)) :
    Fits mtu ∧ mtu < s.mtu ∧ ∀ v, PACKET_MAXIMUMS[idx + 1]? = some v → v < mtu := by
  by_cases unhinted : hop = 0
  · rw [nextMtu_of_table unhinted] at next
    obtain ⟨v, found, same⟩ := Option.map_eq_some_iff.mp next
    obtain ⟨rfl, rfl⟩ := Prod.ext_iff.mp same
    exact ⟨fits_iff.mpr (maximums_fit found (met.1 unhinted)), descending.table v found,
      fun w after => maximums_decrease found after⟩
  · rw [nextMtu_of_hint unhinted] at next
    obtain ⟨rfl, rfl⟩ := Prod.ext_iff.mp (Option.some.inj next)
    exact ⟨fits_iff.mpr (met.2 unhinted).1, (met.2 unhinted).2, fun v => maximums_after_hint⟩

theorem Descending.notify {lastError : MtuError} {rcvBuffer : List UChar}
    (descending : s.Descending) (active : s.Active) :
    { s with lastError, rcvBuffer }.notify.Descending := by
  refine ⟨descending.toCoherent.notify, descending.fits, descending.decreasing, descending.table,
    .inr ⟨rfl, ?_⟩⟩
  rcases descending.live with ⟨-, posted⟩ | ⟨idle, -⟩
  · simp [UdtMtu.notify, UdtMtu.cancel, posted]
  · rcases active with phase | phase <;> simp [idle] at phase

theorem Descending.probe {rcvBuffer : List UChar} (descending : s.Descending) (active : s.Active)
    (met : (hop = 0 → s.currentMtuIdx ≠ 9) ∧ (hop ≠ 0 → 28 ≤ hop.toNat ∧ hop < s.mtu)) :
    { s with mtuHint := hop, rcvBuffer }.sendEcho.Descending ∧
      ({ s with mtuHint := hop, rcvBuffer }.sendEcho.Active →
        { s with mtuHint := hop, rcvBuffer }.sendEcho.mtu < s.mtu) := by
  have coherent : { s with mtuHint := hop, rcvBuffer }.sendEcho.Coherent :=
    descending.toCoherent.probe active
  have posted : s.posted = [] := by
    rcases descending.live with ⟨-, posted⟩ | ⟨idle, -⟩
    · exact posted
    · rcases active with phase | phase <;> simp [idle] at phase
  rcases sendEcho_cases (s := { s with mtuHint := hop, rcvBuffer }) with
    ⟨-, sent⟩ | ⟨mtu, idx, next, sent⟩
  · rw [sent] at coherent ⊢
    refine ⟨⟨coherent, descending.fits, descending.decreasing, descending.table, .inr ⟨rfl, ?_⟩⟩,
      by rintro (sending | waiting) <;> contradiction⟩
    simp [UdtMtu.notify, UdtMtu.cancel, posted]
  · obtain ⟨fits, less, table⟩ := descending.next met next
    rw [sent] at coherent ⊢
    obtain ⟨sending, after⟩ := writeProbe_sending
      (s := { s with mtuHint := hop, rcvBuffer }) fits
    refine ⟨⟨coherent, ?_, ?_, ?_, .inl ⟨.inl sending, by simpa using posted⟩⟩, fun _ => by
      rw [writeProbe_mtu]; exact less⟩
    · intro m earlier
      rw [writeProbe_probes, List.mem_append] at earlier
      rcases earlier with earlier | last
      · exact descending.fits m earlier
      · obtain rfl := List.mem_singleton.mp last
        exact fits
    · rw [writeProbe_probes]
      exact descending.toCoherent.above descending.decreasing less
    · rw [after, writeProbe_mtu]
      exact table

/-- An admissible answer that asks for another probe. -/
theorem Admissible.hint (met : s.Admissible a) (hint : s.hintOf a = some hop) :
    (hop = 0 → s.currentMtuIdx ≠ 9) ∧ (hop ≠ 0 → 28 ≤ hop.toNat ∧ hop < s.mtu) := by
  unfold Admissible at met
  rcases hintOf_active hint with ⟨phase, refused, rfl⟩ | ⟨phase, asked⟩
  · rw [phase] at met
    obtain ⟨unhinted, inside⟩ := met refused
    exact ⟨fun _ => inside, fun hinted => absurd unhinted hinted⟩
  · rw [phase] at met
    exact met hop asked

/-- Sending comes before waiting for the same probe, and every further probe is smaller. -/
def remaining (s : UdtMtu) : Nat := 2 * s.mtu.toNat + if s.phase = .sending then 1 else 0

theorem Descending.step (descending : s.Descending) (met : s.Admissible a) :
    (s.step a).Descending ∧ (s.Active → (s.step a).Active → (s.step a).remaining < s.remaining) := by
  by_cases active : s.Active
  · have tracked := descending.tracked active
    cases hint : s.hintOf a with
    | some hop =>
      obtain ⟨rcvBuffer, probed⟩ := step_probe tracked hint
      obtain ⟨kept, less⟩ := descending.probe active (met.hint hint)
      rw [probed]
      refine ⟨kept, fun _ again => ?_⟩
      have less := less again
      unfold remaining
      simp only [BitVec.lt_def] at less
      split_ifs <;> omega
    | none =>
      rcases step_quiet tracked active hint with
        ⟨sending, waits⟩ | ⟨lastError, rcvBuffer, notified⟩
      · rw [waits]
        refine ⟨⟨⟨descending.last, descending.hint, fun _ => tracked⟩, descending.fits,
          descending.decreasing, descending.table, ?_⟩, fun _ _ => ?_⟩
        · rcases descending.live with ⟨-, posted⟩ | ⟨idle, -⟩
          · exact .inl ⟨.inr rfl, posted⟩
          · simp [idle] at sending
        · unfold remaining asyncRecvReply
          simp [sending]
      · rw [notified]
        exact ⟨descending.notify active, fun _ => by rintro (sending | waiting) <;> contradiction⟩
  · rw [step_rest active]
    exact ⟨descending, fun again => absurd again active⟩

theorem descending_start : create.asyncProbeMtu.Descending := by
  have coherent := coherent_start
  rw [asyncProbeMtu_eq] at coherent ⊢
  have fits : Fits 1500 := by decide
  obtain ⟨sending, after⟩ : (create.writeProbe 1500 0).phase = .sending ∧ _ :=
    writeProbe_sending fits
  refine ⟨coherent, ?_, ?_, ?_, .inl ⟨.inl sending, by simp [create]⟩⟩
  · simpa [create] using fits
  · simp [create]
  · rw [after, writeProbe_mtu]
    intro v found
    obtain rfl := Option.some.inj found
    decide

end Invariants

section Good

theorem descending_run (met : ∀ n, (run answers n).Admissible (answers n)) (n : Nat) :
    (run answers n).Descending :=
  Trace.states_invariant descending_start (fun n descending => (descending.step (met n)).1) n

theorem Good.of_admissible (met : ∀ n, (run answers n).Admissible (answers n)) :
    Good answers := by
  have descending := descending_run met
  refine ⟨fun n => (descending n).fits, fun n => (descending n).decreasing, ?_⟩
  have stops : ∃ n, ¬ (run answers n).Active :=
    Trace.states_leave remaining fun n active again => ((descending n).step (met n)).2 active again
  obtain ⟨n, rests⟩ := stops
  rcases (descending n).live with ⟨active, -⟩ | ended
  · exact absurd active rests
  · exact ⟨n, ended⟩

/-- Where probing is safe, the next probe fits and is smaller. -/
theorem Good.next (good : Good answers) {n : Nat} {rcvBuffer : List UChar}
    (probed : run answers (n + 1) = { run answers n with mtuHint := hop, rcvBuffer }.sendEcho)
    (next : { run answers n with mtuHint := hop, rcvBuffer }.nextMtu = some (mtu, idx)) :
    Fits mtu ∧ mtu < (run answers n).mtu := by
  have wrote : { run answers n with mtuHint := hop, rcvBuffer }.sendEcho =
      { run answers n with mtuHint := hop, rcvBuffer }.writeProbe mtu idx := by
    unfold sendEcho prepareData
    rw [next]
    rfl
  have probes : (run answers (n + 1)).probes = (run answers n).probes ++ [mtu] := by
    rw [probed, wrote, writeProbe_probes]
  have last : (run answers n).mtu ∈ (run answers n).probes :=
    List.mem_of_getLast? (coherent_run n).last
  have decreasing := good.decreasing (n + 1)
  rw [probes] at decreasing
  refine ⟨good.fits (n + 1) mtu (by simp [probes]), ?_⟩
  exact (List.pairwise_append.mp decreasing).2.2 _ last mtu (List.mem_singleton_self _)

theorem Good.hint (good : Good answers) {n : Nat}
    (hint : (run answers n).hintOf (answers n) = some hop) :
    (hop = 0 → (run answers n).currentMtuIdx ≠ 9) ∧
      (hop ≠ 0 → 28 ≤ hop.toNat ∧ hop < (run answers n).mtu) := by
  have active : (run answers n).Active := by
    rcases hintOf_active hint with ⟨phase, -⟩ | ⟨phase, -⟩
    · exact .inl phase
    · exact .inr phase
  obtain ⟨rcvBuffer, probed⟩ := step_probe ((coherent_run n).tracked active) hint
  constructor
  · intro unhinted marker
    have next : { run answers n with mtuHint := hop, rcvBuffer }.nextMtu = some (0, 9) := by
      rw [nextMtu_of_table unhinted, marker]
      rfl
    exact absurd (good.next probed next).1 (by decide)
  · intro hinted
    obtain ⟨fits, less⟩ := good.next probed (nextMtu_of_hint hinted)
    exact ⟨fits_iff.mp fits, less⟩

theorem good_iff_admissible (answers : Nat → Answer) :
    Good answers ↔ ∀ n, (run answers n).Admissible (answers n) := by
  constructor
  · intro good n
    unfold Admissible
    split
    · rename_i phase
      intro refused
      have asked : (run answers n).hintOf (answers n) = some (run answers n).mtuHint := by
        unfold hintOf
        rw [phase]
        exact if_pos refused
      have met := good.hint asked
      have unhinted : (run answers n).mtuHint = 0 := by
        by_contra hinted
        rcases (coherent_run n).hint with unhinted | same
        · exact hinted unhinted
        · have less := (met.2 hinted).2
          rw [same] at less
          simp at less
      exact ⟨unhinted, met.1 unhinted⟩
    · rename_i phase
      intro hop asked
      exact good.hint (by simpa [hintOf, phase] using asked)
    all_goals trivial
  · exact Good.of_admissible

/-- A router asks for packets of 20 bytes. -/
theorem small_hop_not_good : ¬ Good fun _ =>
    ⟨fun _ => .success, .received (List.replicate 20 0 ++ [3, 4, 0, 0, 0, 0, 0, 20])⟩ := by
  intro good
  have fits := good.fits 2 20 (by decide +kernel)
  exact absurd fits (by decide)

end Good

end UdtMtu
end UdtBoost
