import UdtBoost.Effects

/-! Completion of the user's handlers. A handler that was passed to an operation is held by the
socket or has been posted, once; when `on_disconnected` returns, none is held. -/
namespace UdtBoost

/-- A handler the user passed, with the operation it belongs to. -/
inductive Request where
  | connect (handler : Nat)
  | accept (handler : Nat)
  | send (op : SendOperation)
  | receive (op : RecvOperation)
  | shutdown (handler : Nat)

/-- The handler a completion runs. -/
def Completion.request : Completion → Request
  | .sent op _ _ => .send op
  | .received op _ _ => .receive op
  | .connected h _ => .connect h
  | .accepted h _ => .accept h
  | .shutdown h _ => .shutdown h

def Event.request : Event → Option Request
  | .connect h => some (.connect h)
  | .accept h => some (.accept h)
  | .send op => some (.send op)
  | .receive op => some (.receive op)
  | .shutdown h => some (.shutdown h)
  | _ => none

/-- Handlers that were posted, with their number of times. -/
def completed (cs : List Completion) : Multiset Request := (cs.map Completion.request : List Request)

@[simp] theorem completed_nil : completed [] = 0 := rfl

@[simp] theorem completed_singleton (c : Completion) : completed [c] = {c.request} := rfl

@[simp] theorem completed_append (cs ds : List Completion) :
    completed (cs ++ ds) = completed cs + completed ds := by
  simp [completed]

/-- The handlers in the slots for connecting, accepting and shutting down. -/
def UdtSocket.slots (k : UdtSocket) : Multiset Request :=
  (k.connectHandler.toList.map Request.connect : List Request) +
    (k.acceptHandler.toList.map Request.accept : List Request) +
    (k.shutdownHandler.toList.map Request.shutdown : List Request)

/-- The handlers that wait in the socket. -/
def UdtSocket.held (k : UdtSocket) : Multiset Request :=
  (k.sendOps.map Request.send : List Request) + (k.recvOps.map Request.receive : List Request) +
    k.slots

namespace Endpoint

/-- Every handler, posted or held. -/
def accounted (s : Endpoint) : Multiset Request := completed s.posted + s.sk.held

theorem accounted_of_eq {s t : Endpoint} (posted : t.posted = s.posted)
    (sends : t.sk.sendOps = s.sk.sendOps) (receives : t.sk.recvOps = s.sk.recvOps)
    (slots : t.sk.slots = s.sk.slots) : t.accounted = s.accounted := by
  rw [accounted, accounted, UdtSocket.held, UdtSocket.held, posted, sends, receives, slots]

/-- Receive operations leave the queue from its front and are posted. -/
theorem accounted_received {s t : Endpoint} (done : List (RecvOperation × List UChar))
    (rest : List RecvOperation) (e : UdtError) (split : s.sk.recvOps = done.map Prod.fst ++ rest)
    (posted : t.posted = s.posted ++ done.map fun d => .received d.1 e d.2)
    (receives : t.sk.recvOps = rest) (sends : t.sk.sendOps = s.sk.sendOps)
    (slots : t.sk.slots = s.sk.slots) : t.accounted = s.accounted := by
  have moved : completed (done.map fun d => Completion.received d.1 e d.2) =
      ((done.map Prod.fst).map Request.receive : List Request) := by
    simp [completed, Completion.request, Function.comp_def]
  simp only [accounted, UdtSocket.held, posted, receives, sends, slots, split, completed_append,
    moved, List.map_append, ← Multiset.coe_add]
  abel

theorem recvDataLoop_accounted (s : Endpoint) :
    (s.recvDataLoop s.sk.recvOps).2.accounted = s.accounted := by
  obtain ⟨done, rest, rb, waits, split, _, result⟩ := s.recvDataLoop_spec s.sk.recvOps
  rw [result]
  exact accounted_received done rest s.cb.lastError split rfl rfl rfl rfl

theorem delayedLoop_accounted (s : Endpoint) : (s.delayedLoop s.sk.recvOps).accounted = s.accounted := by
  obtain ⟨done, rest, rb, split, result⟩ := s.delayedLoop_spec s.sk.recvOps
  rw [result]
  exact accounted_received done rest s.cb.lastError split rfl rfl rfl rfl

/-- Send operations leave the queue from its front and are posted. -/
theorem consumePendingData_accounted (s : Endpoint) :
    s.consumePendingData.2.accounted = s.accounted := by
  obtain ⟨ops, rest, b, split, _, result⟩ := s.consumePendingData_spec
  have moved : completed (ops.map fun op => Completion.sent op .succeed op.buf.size) =
      (ops.map Request.send : List Request) := by
    simp [completed, Completion.request, Function.comp_def]
  rw [result]
  simp only [accounted, UdtSocket.held, split, completed_append, moved, List.map_append,
    ← Multiset.coe_add]
  change _ + _ + (_ + _ + s.sk.slots) = _
  abel

theorem Selects.unposted {s u : Endpoint} {pkt : Option UdtPacket} (selects : s.Selects pkt u) :
    u.accounted = s.accounted ∧ u.disconnects = s.disconnects := by
  cases selects <;> exact ⟨rfl, rfl⟩

theorem ready_unposted {s u : Endpoint} {pkt : Option UdtPacket} (selects : s.Selects pkt u) :
    (u.ready pkt).accounted = s.accounted ∧ (u.ready pkt).disconnects = s.disconnects := by
  obtain ⟨tPersist, rxtshift, result⟩ := u.ready_eq pkt
  rw [result]
  exact selects.unposted

/-- `output` completes the send operations it takes. -/
theorem Output.accounted {s t : Endpoint} (block : Output s t) :
    t.accounted = s.accounted ∧ t.disconnects = s.disconnects := by
  cases block with
  | idle =>
      unfold outputIdle UdtCb.slowStart
      split
      · split <;> exact ⟨rfl, rfl⟩
      · exact ⟨rfl, rfl⟩
  | consume =>
      refine ⟨s.consumePendingData_accounted, ?_⟩
      obtain ⟨ops, rest, b, _, _, result⟩ := s.consumePendingData_spec
      rw [result]
  | @send u canSend raw pkt env t alive select must before dgram =>
      have ready := ready_unposted (outputSelect_selects select)
      obtain ⟨_, _, _, _, _, _, _, result⟩ := transmit_eq { u.ready pkt with env } pkt raw t
      rw [result]
      exact ready
  | @persist u canSend pkt select can =>
      have ready := ready_unposted (outputSelect_selects select)
      obtain ⟨tPersist, shift, result⟩ := enterPersist_eq { u.ready pkt with cb.rxtshift := 0 }
      rw [result]
      exact ready
  | wait select => exact ready_unposted (outputSelect_selects select)
  | record => exact ⟨rfl, rfl⟩

/-- `on_connected` completes one of the two handlers that wait for the connection. -/
theorem onConnected_accounted (s : Endpoint) : s.onConnected.accounted = s.accounted := by
  unfold onConnected
  dsimp only
  split
  · rcases connect : s.sk.connectHandler with _ | h
    · rcases accept : s.sk.acceptHandler with _ | h
      · exact accounted_of_eq rfl rfl rfl (by simp [UdtSocket.slots, connect, accept])
      · simp only [accounted, UdtSocket.held, UdtSocket.slots, post, connect, accept,
          completed_append, completed_singleton, Completion.request, Option.toList_none,
          Option.toList_some, List.map_nil, List.map_cons, Multiset.coe_nil, Multiset.coe_singleton]
        abel
    · simp only [accounted, UdtSocket.held, UdtSocket.slots, post, connect, completed_append,
        completed_singleton, Completion.request, Option.toList_none, Option.toList_some,
        List.map_nil, List.map_cons, Multiset.coe_nil, Multiset.coe_singleton]
      abel
  · rfl

/-- At most one handler waits for the connection. -/
def OneWaits (s : Endpoint) : Prop := s.sk.connectHandler = none ∨ s.sk.acceptHandler = none

theorem onConnected_waits {s : Endpoint} (one : s.OneWaits) : s.onConnected.OneWaits := by
  unfold onConnected
  dsimp only
  split
  · rcases connect : s.sk.connectHandler with _ | h
    · rcases s.sk.acceptHandler with _ | h
      · exact .inl connect
      · exact .inr rfl
    · exact .inl rfl
  · exact one

/-- An error is set by the time the connection asks to be dropped. -/
def Named (s : Endpoint) : Prop :=
  s.cb.flags.notifyDrop = true ∨ s.cb.TCPS_HAVERCVDFIN = true ∨ s.cb.state = .lastAck →
    s.cb.lastError ≠ .succeed

/-- The handlers of `rs` are accounted for, now and whenever `on_disconnected` returned since
`base` was recorded. -/
structure Conserving (base : List (List Completion)) (rs : Multiset Request) (s : Endpoint) :
    Prop where
  alive : s.sk.nextLayer = true
  all : s.accounted = rs
  one : s.OneWaits
  named : s.Named
  log : ∃ new, s.disconnects = base ++ new ∧ ∀ d ∈ new, completed d = rs

section

variable {base : List (List Completion)} {rs : Multiset Request} {s t : Endpoint}

theorem Conserving.update (inv : Conserving base rs s) (alive : t.sk.nextLayer = s.sk.nextLayer)
    (all : t.accounted = s.accounted) (one : s.OneWaits → t.OneWaits) (named : s.Named → t.Named)
    (log : t.disconnects = s.disconnects) : Conserving base rs t :=
  ⟨alive.trans inv.alive, all.trans inv.all, one inv.one, named inv.named, log ▸ inv.log⟩

theorem Named.steady (same : t.steady = s.steady) (named : s.Named) : t.Named := by
  have state : t.cb.state = s.cb.state := congrArg Steady.state same
  have drop : t.cb.flags.notifyDrop = s.cb.flags.notifyDrop := congrArg Steady.notifyDrop same
  have error : t.cb.lastError = s.cb.lastError := congrArg Steady.lastError same
  unfold Named UdtCb.TCPS_HAVERCVDFIN at named ⊢
  rwa [state, drop, error]

theorem OneWaits.steady (same : t.steady = s.steady) (one : s.OneWaits) : t.OneWaits := by
  have connect : t.sk.connectHandler = s.sk.connectHandler := congrArg Steady.connectHandler same
  have accept : t.sk.acceptHandler = s.sk.acceptHandler := congrArg Steady.acceptHandler same
  rwa [OneWaits, connect, accept]

theorem inner_accounted (block : Block s .inner t) :
    t.accounted = s.accounted ∧ t.disconnects = s.disconnects := by
  cases block with
  | output block => exact block.accounted
  | read =>
      refine ⟨s.recvDataLoop_accounted, ?_⟩
      obtain ⟨done, rest, rb, waits, _, _, result⟩ := s.recvDataLoop_spec s.sk.recvOps
      rw [result]
  | @delayed n =>
      refine ⟨delayedLoop_accounted { s with sk.delayWaits := n }, ?_⟩
      obtain ⟨done, rest, rb, _, result⟩ :=
        ({ s with sk.delayWaits := n } : Endpoint).delayedLoop_spec s.sk.recvOps
      rw [result]

theorem inners_accounted (path : BlockPath Tag.Inner s t) :
    t.accounted = s.accounted ∧ t.disconnects = s.disconnects := by
  refine path.invariant (I := fun t => t.accounted = s.accounted ∧ t.disconnects = s.disconnects)
    ⟨rfl, rfl⟩ fun x a y inv inner block => ?_
  obtain rfl : a = .inner := inner
  obtain ⟨all, log⟩ := inner_accounted block
  exact ⟨all.trans inv.1, log.trans inv.2⟩

theorem Conserving.inners (inv : Conserving base rs s) (path : BlockPath Tag.Inner s t) :
    Conserving base rs t := by
  have same := path_inner_steady path
  obtain ⟨all, log⟩ := inners_accounted path
  exact inv.update (congrArg Steady.nextLayer same) all (.steady same) (.steady same) log

theorem Conserving.connected (inv : Conserving base rs s) : Conserving base rs s.onConnected := by
  have all := s.onConnected_accounted
  have one := onConnected_waits inv.one
  obtain ⟨connect, accept, posted, result⟩ := s.onConnected_eq
  rw [result] at all one ⊢
  exact inv.update rfl all (fun _ => one) id rfl

theorem Conserving.ackHandshake (inv : Conserving base rs s) :
    Conserving base rs s.ackHandshake := by
  unfold Endpoint.ackHandshake
  cases state : s.cb.state
  case synSent =>
    refine inv.update rfl rfl id (fun named due => named (.inl ?_)) rfl
    simpa [UdtCb.TCPS_HAVERCVDFIN] using due
  case synReceived =>
    obtain ⟨_, _, _, _, _, _, timed⟩ :=
      ({ s with cb.state := .established } : Endpoint).timeHandshake_eq
    dsimp only
    rw [timed]
    refine Conserving.connected (inv.update rfl rfl id (fun named due => named (.inl ?_)) rfl)
    simpa [UdtCb.TCPS_HAVERCVDFIN] using due
  all_goals exact inv

theorem Conserving.ackFin (inv : Conserving base rs s) : Conserving base rs s.ackFin := by
  unfold Endpoint.ackFin
  split
  · cases state : s.cb.state
    case finWait1 =>
      refine inv.update rfl rfl id (fun named due => named (.inl ?_)) rfl
      simpa [UdtCb.TCPS_HAVERCVDFIN] using due
    case closing =>
      refine inv.update rfl rfl id (fun named _ => named (.inr (.inl ?_))) rfl
      simp [UdtCb.TCPS_HAVERCVDFIN, state]
    case lastAck =>
      exact inv.update rfl rfl id (fun named _ => named (.inr (.inr state))) rfl
    all_goals exact inv
  · exact inv

theorem Conserving.fin (inv : Conserving base rs s) : Conserving base rs s.handleFin := by
  obtain ⟨t2msl, drop, result⟩ := s.handleFin_eq
  rw [result]
  split
  · next finned =>
      exact inv.update rfl rfl id (fun named _ => named (.inr (.inl finned))) rfl
  · exact inv.update rfl rfl id (fun _ _ => by simp) rfl

theorem slots_completed (e : UdtError) (one : s.OneWaits) :
    completed (s.sk.handlers e) = s.sk.slots := by
  have shut : completed (s.sk.shutdownHandler.toList.map (Completion.shutdown · e)) =
      (s.sk.shutdownHandler.toList.map Request.shutdown : List Request) := by
    simp [completed, Completion.request, Function.comp_def]
  rw [UdtSocket.handlers, UdtSocket.slots, completed_append, shut]
  rcases connect : s.sk.connectHandler with _ | h
  · rcases s.sk.acceptHandler with _ | h <;> rfl
  · obtain accept : s.sk.acceptHandler = none := one.resolve_left (by simp [connect])
    rw [accept]
    rfl

/-- `on_disconnected` completes every handler when it leaves no receive operation behind and
takes no send operation twice. -/
theorem onDisconnected_completed (alive : s.sk.nextLayer = true) (one : s.OneWaits) {x : Endpoint}
    (notified : x = { s with posted := s.posted ++ s.sk.sendOps.map (.sent · .disconnected 0) })
    (emptied : x.recvData.sk.recvOps = []) (kept : x.recvData.sk.sendOps = s.sk.sendOps) :
    completed s.onDisconnected.posted = s.accounted ∧ s.onDisconnected.sk.held = 0 ∧
      s.onDisconnected.disconnects = s.disconnects ++ [s.onDisconnected.posted] ∧
      s.onDisconnected.steady = { s.steady with
        connectHandler := none, acceptHandler := none, shutdownHandler := none } := by
  have path := x.recvData_blocks
  have same := path_inner_steady path
  obtain ⟨all, log⟩ := inners_accounted path
  rw [onDisconnected, if_pos alive, notifySends_eq, ← notified]
  dsimp only
  rw [postHandlers_eq]
  generalize x.recvData = y at emptied kept same all log ⊢
  subst notified
  have slots := slots_completed .disconnected (OneWaits.steady same one)
  have sends : completed (s.sk.sendOps.map (Completion.sent · .disconnected 0)) =
      (s.sk.sendOps.map Request.send : List Request) := by
    simp [completed, Completion.request, Function.comp_def]
  refine ⟨?_, rfl, ?_, ?_⟩
  · change completed (y.posted ++ y.sk.handlers .disconnected) = s.accounted
    rw [completed_append, slots]
    simp only [accounted, completed_append, sends, UdtSocket.held, emptied, kept, List.map_nil,
      Multiset.coe_nil, add_zero] at all ⊢
    refine add_left_cancel (a := (s.sk.sendOps.map Request.send : Multiset Request)) ?_
    calc _ = completed y.posted + (↑(s.sk.sendOps.map Request.send) + y.sk.slots) := by abel
      _ = _ := all
      _ = _ := by abel
  · change y.disconnects ++ [_] = s.disconnects ++ [_]
    rw [log]
  · change { y.steady with connectHandler := none, acceptHandler := none, shutdownHandler := none } = _
    rw [same]
    rfl

/-- Without an operation that has been taken from its queue already, the end of a connection
leaves nothing held. -/
theorem Conserving.disconnect (inv : Conserving base rs s) {x : Endpoint}
    (notified : x = { s with posted := s.posted ++ s.sk.sendOps.map (.sent · .disconnected 0) })
    (emptied : x.recvData.sk.recvOps = []) (kept : x.recvData.sk.sendOps = s.sk.sendOps) :
    Conserving base rs s.onDisconnected := by
  obtain ⟨all, held, log, same⟩ := onDisconnected_completed inv.alive inv.one notified emptied kept
  obtain ⟨new, old, complete⟩ := inv.log
  refine ⟨?_, ?_, .inl ?_, ?_, new ++ [s.onDisconnected.posted], ?_, ?_⟩
  · exact (congrArg Steady.nextLayer same).trans inv.alive
  · rw [accounted, held, add_zero, all, inv.all]
  · exact congrArg Steady.connectHandler same
  · have state : s.onDisconnected.cb.state = s.cb.state := congrArg Steady.state same
    have drop : s.onDisconnected.cb.flags.notifyDrop = s.cb.flags.notifyDrop :=
      congrArg Steady.notifyDrop same
    have error : s.onDisconnected.cb.lastError = s.cb.lastError := congrArg Steady.lastError same
    have named := inv.named
    unfold Named UdtCb.TCPS_HAVERCVDFIN at named ⊢
    rwa [state, drop, error]
  · rw [log, old, List.append_assoc]
  · intro d member
    rcases List.mem_append.mp member with earlier | last
    · exact complete d earlier
    · rw [List.mem_singleton.mp last, all, inv.all]

/-- Once an error is set, every receive operation is completed with it. -/
theorem recvData_failed (failed : s.cb.lastError ≠ .succeed) :
    s.recvData.sk.recvOps = [] ∧ s.recvData.sk.sendOps = s.sk.sendOps := by
  obtain ⟨done, rest, rb, waits, _, all, result⟩ := s.recvDataLoop_spec s.sk.recvOps
  have skip : ¬ (s.sk.rcvBuf.cc = 0 ∧ s.cb.lastError = .succeed) := fun idle => failed idle.2
  rw [recvData, if_neg skip]
  generalize s.recvDataLoop s.sk.recvOps = outcome at result ⊢
  obtain ⟨output, y⟩ := outcome
  dsimp only at result ⊢
  rw [result]
  dsimp only
  rw [if_neg fun open_ => failed open_.1]
  exact ⟨all failed, rfl⟩

theorem Conserving.fastRexmt (inv : Conserving base rs s) (ack : Word) :
    Conserving base rs (s.doFastRexmt ack) := by
  obtain ⟨_, _, _, _, _, _, _, _, result, _⟩ := s.beginFastRexmt_eq ack
  have begun : Conserving base rs (s.handlePacketLost.beginFastRexmt ack) := by
    rw [result]
    exact inv.update rfl rfl id id rfl
  have sent := begun.inners (output_inner _)
  rw [doFastRexmt]
  dsimp only
  generalize (s.handlePacketLost.beginFastRexmt ack).output = x at sent ⊢
  exact sent.update rfl rfl id id rfl

/-- The blocks of an event other than a request, `cancel`, `close` or an error of the UDP socket. -/
def Served (a : Tag) : Prop :=
  match a with
  | .post | .cancel | .connect _ | .accept _ | .shutdown _ | .send _ | .receive _ | .close => False
  | _ => True

theorem Conserving.block {a : Tag} (inv : Conserving base rs s) (block : Block s a t)
    (served : Served a) : Conserving base rs t := by
  cases block with
  | output block => exact inv.inners ((Block.output block).path rfl)
  | read => exact inv.inners (Block.read.path rfl)
  | delayed => exact inv.inners (Block.delayed.path rfl)
  | disconnect due =>
      have failed : s.cb.lastError ≠ .succeed := by
        rcases due with drop | failed
        · exact inv.named (.inl drop)
        · exact failed
      obtain ⟨emptied, kept⟩ := recvData_failed
        (s := { s with posted := s.posted ++ s.sk.sendOps.map (.sent · .disconnected 0) }) failed
      exact inv.disconnect rfl emptied kept
  | sampled =>
      unfold updateRtt
      split
      · obtain ⟨srtt, rttvar, rxtcur, result⟩ := s.xmitTimer_eq s.cb.rtt
        rw [result]
        exact inv.update rfl rfl id id rfl
      · exact inv
  | hangup named => exact inv.update rfl rfl id (fun _ _ => named) rfl
  | @ackPredicted p =>
      obtain ⟨_, _, _, _, _, _, _, _, result⟩ := s.ackPredicted_eq p.hdr.ack
      rw [result]
      exact inv.update rfl rfl id id rfl
  | @syn p alive isSyn =>
      obtain ⟨wl1, wl2, tKeep, result⟩ := s.handleSyn_eq p
      rw [result]
      split
      · by_cases listening : s.cb.state = .listen
        · rw [if_pos listening]
          refine inv.update rfl rfl id (fun named due => named (.inl ?_)) rfl
          simpa [UdtCb.TCPS_HAVERCVDFIN] using due
        · rw [if_neg listening]
          refine inv.update rfl rfl id (fun named due => named (.inl ?_)) rfl
          simpa [UdtCb.TCPS_HAVERCVDFIN] using due
      · exact inv.update rfl rfl id id rfl
  | @reass p =>
      obtain ⟨_, _, _, _, _, _, result⟩ := s.TCP_REASS_eq p
      rw [result]
      exact inv.update rfl rfl id id rfl
  | ackAll => exact inv.ackHandshake.ackFin
  | fack =>
      unfold UdtCb.updateSndFack
      split <;> exact inv.update rfl rfl id id rfl
  | sacked =>
      rw [dropSndPkt_eq]
      exact inv.update rfl rfl id id rfl
  | @window p =>
      obtain ⟨_, _, result⟩ := s.ackWindow_eq (p.hdr.win.setWidth 32)
      rw [result]
      exact inv.update rfl rfl id id rfl
  | late =>
      obtain ⟨_, _, result⟩ := resetRexmtTimer_eq { s.cb with dupacks := 0 }
      rw [result]
      exact inv.update rfl rfl id id rfl
  | duplicate =>
      obtain ⟨_, _, result⟩ := resetRexmtTimer_eq { s.cb with dupacks := s.cb.dupacks + 1 }
      rw [result]
      exact inv.update rfl rfl id id rfl
  | @fastRexmt p =>
      have counted : Conserving base rs
          ({ s with cb.dupacks := s.cb.dupacks + 1, cb.rtt := 0 } : Endpoint) :=
        inv.update rfl rfl id id rfl
      exact counted.fastRexmt p.hdr.ack
  | @ackNew p =>
      obtain ⟨_, _, _, _, _, _, _, _, _, result⟩ := s.ackNewData_eq p.hdr
      rw [result]
      exact inv.update rfl rfl id id rfl
  | fin => exact inv.fin
  | failed named => exact inv.update rfl rfl id (fun _ _ => named) rfl
  | dropped =>
      refine inv.update rfl rfl id (fun named due => named (.inl ?_)) rfl
      simpa [UdtCb.TCPS_HAVERCVDFIN] using due
  | dropDone =>
      refine inv.update rfl rfl id (fun named due => named ?_) rfl
      exact .inr (due.resolve_left (by simp))
  | receiving =>
      obtain ⟨pkt, next, _, result⟩ := s.doReceive_eq
      rw [result]
      exact inv.update rfl rfl id id rfl
  | rexmtBegun =>
      obtain ⟨_, _, _, _, _, _, _, _, _, _, result⟩ := s.rexmtBegun_eq
      rw [result]
      exact inv.update rfl rfl id id rfl
  | persistBegun =>
      obtain ⟨_, _, _, _, _, result, _⟩ := s.persistBegun_eq
      rw [result]
      exact inv.update rfl rfl id id rfl
  | mtu =>
      unfold UdtCb.setMtu
      split
      · exact inv.update rfl rfl id id rfl
      · exact inv
  | notifySends | notifyHandlers | notified | cancel | connect | connectBusy | accept | acceptBusy
  | shutdown | sendRefused | sendQueued | receiveRefused | receiveQueued | close =>
      exact served.elim
  | _ => exact inv.update rfl rfl id id rfl

theorem Conserving.request (inv : Conserving base rs s) (r : Request)
    (alive : t.sk.nextLayer = s.sk.nextLayer) (all : t.accounted = s.accounted + {r})
    (one : t.OneWaits) (named : s.Named → t.Named) (log : t.disconnects = s.disconnects) :
    Conserving s.disconnects (rs + {r}) t := by
  refine ⟨alive.trans inv.alive, by rw [all, inv.all], one, named inv.named, [], ?_, by simp⟩
  rw [log, List.append_nil]

theorem post_accounted (s : Endpoint) (c : Completion) :
    (s.post c).accounted = s.accounted + {c.request} := by
  simp only [accounted, post, completed_append, completed_singleton]
  abel

theorem Conserving.connect (inv : Conserving base rs s) {h : Nat}
    (idle : s.sk.connectHandler = none ∧ s.sk.acceptHandler = none)
    (block : Block s (.connect h) t) : Conserving s.disconnects (rs + {.connect h}) t := by
  have all : ∀ x : Endpoint, x.posted = s.posted → x.sk.sendOps = s.sk.sendOps →
      x.sk.recvOps = s.sk.recvOps → x.sk.connectHandler = some h →
      x.sk.acceptHandler = s.sk.acceptHandler → x.sk.shutdownHandler = s.sk.shutdownHandler →
      x.accounted = s.accounted + {.connect h} := by
    intro x posted sends receives connect accept shut
    simp only [accounted, UdtSocket.held, UdtSocket.slots, posted, sends, receives, connect, accept,
      shut, idle.1, Option.toList_none, Option.toList_some, List.map_nil, List.map_cons,
      Multiset.coe_nil, Multiset.coe_singleton]
    abel
  cases block with
  | connect =>
      obtain ⟨pkt, next, _, result⟩ := s.connecting_eq h
      rw [result]
      refine inv.request _ rfl (all _ rfl rfl rfl rfl rfl rfl) (.inr idle.2) ?_ rfl
      intro named due
      exact named (.inl (by simpa [UdtCb.TCPS_HAVERCVDFIN] using due))
  | connectBusy =>
      obtain ⟨pkt, next, _, result⟩ :=
        ({ s with sk.connectHandler := some h } : Endpoint).doReceive_eq
      rw [result]
      exact inv.request _ rfl (all _ rfl rfl rfl rfl rfl rfl) (.inr idle.2) id rfl

theorem Conserving.accept (inv : Conserving base rs s) {h : Nat}
    (idle : s.sk.connectHandler = none ∧ s.sk.acceptHandler = none)
    (block : Block s (.accept h) t) : Conserving s.disconnects (rs + {.accept h}) t := by
  obtain ⟨pkt, next, _, result⟩ := ({ s with sk.acceptHandler := some h } : Endpoint).doReceive_eq
  have all : ∀ x : Endpoint, x.posted = s.posted → x.sk.sendOps = s.sk.sendOps →
      x.sk.recvOps = s.sk.recvOps → x.sk.connectHandler = s.sk.connectHandler →
      x.sk.acceptHandler = some h → x.sk.shutdownHandler = s.sk.shutdownHandler →
      x.accounted = s.accounted + {.accept h} := by
    intro x posted sends receives connect accept shut
    simp only [accounted, UdtSocket.held, UdtSocket.slots, posted, sends, receives, connect, accept,
      shut, idle.2, Option.toList_none, Option.toList_some, List.map_nil, List.map_cons,
      Multiset.coe_nil, Multiset.coe_singleton]
    abel
  cases block with
  | accept =>
      rw [result]
      refine inv.request _ rfl (all _ rfl rfl rfl rfl rfl rfl) (.inl idle.1) ?_ rfl
      intro named due
      exact named (.inl (by simpa [UdtCb.TCPS_HAVERCVDFIN] using due))
  | acceptBusy =>
      rw [result]
      exact inv.request _ rfl (all _ rfl rfl rfl rfl rfl rfl) (.inl idle.1) id rfl

theorem Conserving.shutdown (inv : Conserving base rs s) {h : Nat}
    (idle : s.sk.shutdownHandler = none) (block : Block s (.shutdown h) t) :
    Conserving s.disconnects (rs + {.shutdown h}) t := by
  cases block with
  | shutdown =>
      rw [closing_eq]
      refine inv.request _ rfl ?_ inv.one ?_ rfl
      · simp only [accounted, UdtSocket.held, UdtSocket.slots, idle, Option.toList_none,
          Option.toList_some, List.map_nil, List.map_cons, Multiset.coe_nil, Multiset.coe_singleton]
        abel
      · intro named due
        dsimp only [UdtCb.TCPS_HAVERCVDFIN] at due
        split at due
        · exact named (.inl (by simpa using due))
        · next opened =>
            split at due
            · next waiting => exact named (.inr (.inl (by simp [UdtCb.TCPS_HAVERCVDFIN, waiting])))
            · exact named due

theorem Conserving.send (inv : Conserving base rs s) {op : SendOperation}
    (block : Block s (.send op) t) : Conserving s.disconnects (rs + {.send op}) t := by
  cases block with
  | sendRefused => exact inv.request _ rfl (s.post_accounted _) inv.one id rfl
  | sendQueued =>
      refine inv.request _ rfl ?_ inv.one id rfl
      simp only [accounted, UdtSocket.held, queueSend, List.map_append, List.map_cons, List.map_nil,
        ← Multiset.coe_add, Multiset.coe_singleton]
      change _ + (_ + _ + s.sk.slots) = _
      abel

theorem Conserving.receive (inv : Conserving base rs s) {op : RecvOperation}
    (block : Block s (.receive op) t) : Conserving s.disconnects (rs + {.receive op}) t := by
  cases block with
  | receiveRefused => exact inv.request _ rfl (s.post_accounted _) inv.one id rfl
  | receiveQueued =>
      refine inv.request _ rfl ?_ inv.one id rfl
      simp only [accounted, UdtSocket.held, List.map_append, List.map_cons, List.map_nil,
        ← Multiset.coe_add, Multiset.coe_singleton]
      change _ + (_ + _ + s.sk.slots) = _
      abel

end

end Endpoint

/-- The bytes of a buffer complete the receive operations in their order, each as a whole. -/
def UdtBuf.Serves (b : UdtBuf) : List RecvOperation → Prop
  | [] => True
  | op :: ops => op.buf.size ≤ b.cc ∧ (b.copy op.buf.size.toNat true).1 ≠ [] ∧
      (b.copy op.buf.size.toNat true).2.Serves ops

/-- A handler is passed only where none waits in its slot, and when an error of the UDP socket,
`operation_aborted` included, ends a connection without an error of its own, no operation is left that
`recv_data` cannot complete or that its `output` could take again. -/
def Event.Careful (s : Endpoint) : Event → Prop
  | .connect _ | .accept _ => s.sk.connectHandler = none ∧ s.sk.acceptHandler = none
  | .shutdown _ => s.sk.shutdownHandler = none
  | .receiveError _ => s.cb.lastError ≠ .succeed ∨ s.sk.recvOps = [] ∨
      s.sk.sendOps = [] ∧ s.sk.rcvBuf.toUdtBuf.Serves s.sk.recvOps
  | .cancel | .close => False
  | _ => True

namespace Endpoint

section

variable {base : List (List Completion)} {rs : Multiset Request} {s t : Endpoint}

theorem recvDataLoop_serves (s : Endpoint) (ops : List RecvOperation)
    (serves : s.sk.rcvBuf.toUdtBuf.Serves ops) : (s.recvDataLoop ops).2.sk.recvOps = [] := by
  induction ops generalizing s with
  | nil => rfl
  | cons op ops ih =>
      obtain ⟨enough, some_, rest⟩ := serves
      have short : ¬ (s.cb.lastError = .succeed ∧ s.sk.rcvBuf.cc < op.buf.size) :=
        fun short => BitVec.not_lt.mpr enough short.2
      rw [recvDataLoop, if_neg short, dispatchRecvOperation]
      generalize s.sk.rcvBuf.toUdtBuf.copy op.buf.size.toNat true = copied at some_ rest ⊢
      obtain ⟨bytes, rb⟩ := copied
      dsimp only at some_ rest ⊢
      rw [if_pos (.inl some_)]
      exact ih _ rest

theorem Output.queues {s t : Endpoint} (block : Output s t) :
    t.sk.recvOps = s.sk.recvOps ∧ (s.sk.sendOps = [] → t.sk.sendOps = []) := by
  have ready : ∀ {u : Endpoint} {pkt : Option UdtPacket}, s.Selects pkt u →
      (u.ready pkt).sk.recvOps = s.sk.recvOps ∧ (u.ready pkt).sk.sendOps = s.sk.sendOps := by
    intro u pkt selects
    obtain ⟨tPersist, rxtshift, result⟩ := u.ready_eq pkt
    rw [result]
    cases selects <;> exact ⟨rfl, rfl⟩
  cases block with
  | idle =>
      unfold outputIdle UdtCb.slowStart
      split
      · split <;> exact ⟨rfl, id⟩
      · exact ⟨rfl, id⟩
  | consume =>
      obtain ⟨ops, rest, b, split, _, result⟩ := s.consumePendingData_spec
      rw [result]
      refine ⟨rfl, fun empty => ?_⟩
      rw [empty] at split
      exact (List.append_eq_nil_iff.mp split.symm).2
  | @send u canSend raw pkt env t alive select must before dgram =>
      obtain ⟨receives, sends⟩ := ready (outputSelect_selects select)
      obtain ⟨_, _, _, _, _, _, _, result⟩ := transmit_eq { u.ready pkt with env } pkt raw t
      rw [result]
      exact ⟨receives, fun empty => sends.trans empty⟩
  | @persist u canSend pkt select can =>
      obtain ⟨receives, sends⟩ := ready (outputSelect_selects select)
      obtain ⟨tPersist, shift, result⟩ := enterPersist_eq { u.ready pkt with cb.rxtshift := 0 }
      rw [result]
      exact ⟨receives, fun empty => sends.trans empty⟩
  | wait select =>
      obtain ⟨receives, sends⟩ := ready (outputSelect_selects select)
      exact ⟨receives, fun empty => sends.trans empty⟩
  | record => exact ⟨rfl, id⟩

theorem output_queues (s : Endpoint) :
    s.output.sk.recvOps = s.sk.recvOps ∧ (s.sk.sendOps = [] → s.output.sk.sendOps = []) := by
  refine s.output_blocks.keeps
    (I := fun t => t.sk.recvOps = s.sk.recvOps ∧ (s.sk.sendOps = [] → t.sk.sendOps = []))
    ⟨rfl, id⟩ fun x y inv block => ?_
  obtain ⟨receives, sends⟩ := block.queues
  exact ⟨receives.trans inv.1, fun empty => sends (inv.2 empty)⟩

/-- What is left of the queues after `recv_data` without an error set. -/
theorem recvData_served (ready : s.sk.recvOps = [] ∨
    s.sk.sendOps = [] ∧ s.sk.rcvBuf.toUdtBuf.Serves s.sk.recvOps) :
    s.recvData.sk.recvOps = [] ∧ s.recvData.sk.sendOps = s.sk.sendOps := by
  by_cases empty : s.sk.recvOps = []
  · rw [recvData, empty, recvDataLoop]
    dsimp only
    split
    · exact ⟨empty, rfl⟩
    · rw [if_neg (by simp)]
      exact ⟨rfl, rfl⟩
  · obtain ⟨unsent, serves⟩ := ready.resolve_left empty
    have some_ : ¬ (s.sk.rcvBuf.cc = 0 ∧ s.cb.lastError = .succeed) := by
      rintro ⟨nothing, _⟩
      obtain ⟨op, ops, queue⟩ := List.exists_cons_of_ne_nil empty
      rw [queue] at serves
      have size : op.buf.size = 0 := by
        have enough := serves.1
        rw [nothing] at enough
        exact BitVec.le_zero_iff.mp enough
      refine serves.2.1 ?_
      rw [size]
      unfold UdtBuf.copy
      cases s.sk.rcvBuf.toUdtBuf.pkts <;> rfl
    have emptied := s.recvDataLoop_serves s.sk.recvOps serves
    obtain ⟨_, _, _, _, _, _, result⟩ := s.recvDataLoop_spec s.sk.recvOps
    have kept : (s.recvDataLoop s.sk.recvOps).2.sk.sendOps = s.sk.sendOps := by rw [result]
    rw [recvData, if_neg some_]
    generalize s.recvDataLoop s.sk.recvOps = outcome at emptied kept ⊢
    obtain ⟨out, y⟩ := outcome
    dsimp only at emptied kept ⊢
    split
    · obtain ⟨receives, sends⟩ := y.output_queues
      exact ⟨receives.trans emptied, (sends (kept.trans unsent)).trans unsent.symm⟩
    · exact ⟨emptied, kept⟩

theorem Conserving.receiveError (inv : Conserving base rs s) {value : Int}
    (careful : (Event.receiveError value).Careful s) :
    Conserving base rs (s.handleReceiveError value) := by
  have released : Conserving base rs { s with sk.rcvPkt := none } := inv.update rfl rfl id id rfl
  rw [handleReceiveError_eq, if_pos inv.alive]
  rcases careful with named | ready
  · obtain ⟨emptied, kept⟩ := recvData_failed (s := { s with
      sk.rcvPkt := none
      posted := s.posted ++ s.sk.sendOps.map (.sent · .disconnected 0) }) named
    exact released.disconnect rfl emptied kept
  · obtain ⟨emptied, kept⟩ := recvData_served (s := { s with
      sk.rcvPkt := none
      posted := s.posted ++ s.sk.sendOps.map (.sent · .disconnected 0) }) ready
    exact released.disconnect rfl emptied kept

/-- One event accounts for its own handler, and for all earlier ones. -/
theorem step_conserving (inv : Conserving base rs s) {e : Event} (careful : e.Careful s) :
    Conserving s.disconnects (rs + (e.request.toList : List Request)) (s.step e) := by
  have fresh : Conserving s.disconnects rs s :=
    ⟨inv.alive, inv.all, inv.one, inv.named, [], by rw [List.append_nil], by simp⟩
  have served : ∀ {e : Event}, (∀ s a, e.Tags s a → Served a) →
      Conserving s.disconnects rs (s.step e) := fun {e} served =>
    (s.step_blocks e).invariant fresh fun _ a _ inv met block => inv.block block (served s a met)
  have late : ∀ s a, Tag.Late s a → Served a := by
    rintro s a (rfl | rfl | rfl) <;> trivial
  have unasked : ∀ {x : Endpoint}, Conserving s.disconnects rs x →
      Conserving s.disconnects (rs + ((none : Option Request).toList : List Request)) x := by
    intro x inv
    simpa using inv
  have requested : ∀ {a : Tag} {r : Request} {x : Endpoint}, Requested a s x →
      (∀ t, Block s a t → Conserving s.disconnects (rs + {r}) t) →
      Conserving s.disconnects (rs + ((some r).toList : List Request)) x := by
    rintro a r x ⟨m, block, path⟩ first
    exact (first m block).inners path
  cases e with
  | connect h => exact requested (s.connect_blocks h inv.alive) fun _ => fresh.connect careful
  | accept h => exact fresh.accept careful (s.accept_blocks h inv.alive)
  | send op => exact requested (s.send_blocks op inv.alive) fun _ => fresh.send
  | receive op => exact requested (s.receive_blocks op inv.alive) fun _ => fresh.receive
  | shutdown h => exact requested (s.shutdown_blocks h inv.alive) fun _ => fresh.shutdown careful
  | packet hdr mem n =>
      refine unasked (served fun s a tag => ?_)
      rcases tag with tag | ⟨buffer, _, _, tag | rfl⟩
      · exact late s a tag
      · cases a <;> trivial
      · trivial
  | slowTimo | delayTimer => exact unasked (served late)
  | fastTimo =>
      refine unasked (served fun s a tag => ?_)
      rcases tag with rfl | rfl <;> trivial
  | receiveError value => exact unasked (fresh.receiveError careful)
  | mtu | setKeepalive | setSndBuf | setRcvBuf =>
      refine unasked (served fun s a tag => ?_)
      obtain rfl : a = _ := tag
      trivial
  | cancel | close => exact careful.elim

theorem run_conserving (inv : Conserving base rs s) {es : List Event}
    (careful : Trace.Meets step (fun s e => e.Careful s) s es) :
    ∃ base, Conserving base (rs + (es.filterMap Event.request : List Request)) (s.run es) := by
  induction es generalizing s rs base with
  | nil => exact ⟨base, by simpa [run] using inv⟩
  | cons e es ih =>
      obtain ⟨base, conserving⟩ := ih (step_conserving inv careful.1) careful.2
      refine ⟨base, ?_⟩
      have both : (e.request.toList : Multiset Request) + (es.filterMap Event.request : List Request) =
          ((e :: es).filterMap Event.request : List Request) := by
        cases request : e.request <;> simp [request]
      rwa [add_assoc, both] at conserving

end

theorem init_conserving (fack sndSeq rcvSeq : Word) (env : Env) :
    Conserving [] 0 (init fack sndSeq rcvSeq env) where
  alive := rfl
  all := rfl
  one := .inl rfl
  named := by simp [Named, init, UdtCb.init, UdtCb.TCPS_HAVERCVDFIN]
  log := ⟨[], rfl, by simp⟩

/-- In every run whose events are careful, each handler is posted or held, once, and by the time
`on_disconnected` returns every handler passed so far has been posted. -/
theorem handlers_posted_once (fack sndSeq rcvSeq : Word) (env : Env) (es : List Event) (e : Event)
    (careful : Trace.Meets step (fun s e => e.Careful s) (init fack sndSeq rcvSeq env) es)
    (last : e.Careful ((init fack sndSeq rcvSeq env).run es)) :
    let s := (init fack sndSeq rcvSeq env).run es
    let t := s.step e
    completed t.posted + t.sk.held = ((es ++ [e]).filterMap Event.request : List Request) ∧
      ∀ d ∈ t.disconnects.drop s.disconnects.length,
        completed d = ((es ++ [e]).filterMap Event.request : List Request) := by
  intro s t
  obtain ⟨base, before⟩ := run_conserving (init_conserving fack sndSeq rcvSeq env) careful
  have after := step_conserving before last
  have asked : (0 : Multiset Request) + (es.filterMap Event.request : List Request) +
      (e.request.toList : List Request) = ((es ++ [e]).filterMap Event.request : List Request) := by
    cases request : e.request <;> simp [request, ← Multiset.coe_add]
  rw [asked] at after
  obtain ⟨new, log, complete⟩ := after.log
  refine ⟨after.all, ?_⟩
  change ∀ d ∈ (s.step e).disconnects.drop s.disconnects.length, _
  rw [log, List.drop_left]
  exact complete

/-- A passive open that the peer resets before the handshake ends. -/
def resetAccept : List Event :=
  [.accept 7, .datagram ⟨0, UdtHdr.TH_SYN, 1000, 0, 20, 100, 0, 0⟩ []]

theorem handlers_posted_once_reset :
    completed ((((init 0 0 0 Env.zero).run resetAccept).step
      (.datagram ⟨0, UdtHdr.TH_RST, 1000, 0, 20, 101, 0, 0⟩ [])).disconnects.headD []) =
        {.accept 7} := by
  have fresh : ((init 0 0 0 Env.zero).run resetAccept).disconnects.length = 0 := by decide +kernel
  have counts : (((init 0 0 0 Env.zero).run resetAccept).step
      (.datagram ⟨0, UdtHdr.TH_RST, 1000, 0, 20, 101, 0, 0⟩ [])).disconnects.length = 1 := by
    decide +kernel
  have all := (handlers_posted_once 0 0 0 Env.zero resetAccept
    (.datagram ⟨0, UdtHdr.TH_RST, 1000, 0, 20, 101, 0, 0⟩ [])
    ⟨⟨rfl, rfl⟩, trivial, trivial⟩ trivial).2
  rw [fresh, List.drop_zero] at all
  obtain ⟨d, only⟩ := List.length_eq_one_iff.mp counts
  rw [only] at all ⊢
  exact all d List.mem_cons_self

/-- The user connects and waits for data when the UDP socket fails. -/
def lostReceive : List Event :=
  [.connect 0, .datagram ⟨0, UdtHdr.TH_SYN ||| UdtHdr.TH_ACK, 1000, 0, 20, 100, 1, 0⟩ [],
    .receive ⟨⟨false, 10⟩, 1⟩, .receiveError 10054]

theorem receive_never_completed :
    ¬ ∀ d ∈ ((init 0 0 0 Env.zero).run lostReceive).disconnects,
      completed d = (lostReceive.filterMap Event.request : List Request) := by
  have counts : ((init 0 0 0 Env.zero).run lostReceive).disconnects.map List.length = [1] := by
    decide +kernel
  obtain ⟨d, only, length⟩ := List.map_eq_singleton_iff.mp counts
  intro complete
  have card := congrArg Multiset.card (complete d (by rw [only]; exact List.mem_singleton_self d))
  rw [completed, Multiset.coe_card, List.length_map, length] at card
  cases card

end Endpoint
end UdtBoost
