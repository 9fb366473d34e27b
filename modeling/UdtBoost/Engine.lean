import UdtBoost.Run
import UdtBoost.PubAddr

/-! `udt_engine.cpp`: sockets behind pointers, and requests that run as tasks of one `io_service`
in the order in which they were posted. Pointers are numbers; the members of
`udt_engine_socket_set_` are the pointers that have a socket. -/
namespace UdtBoost

/-- A helper object. Its number is history: no function reads it. -/
structure Helper (α : Type) where
  id : Nat
  obj : α

structure UdtEngineSocket (Ep : Type) where
  sock : Endpoint
  pubAddr : Option (Helper (PubAddr Ep))
  hpClt : Option (Helper (HpClt Ep))
  /-- History: the last objects `async_pub_addr_` and `async_hole_punch_` made for the socket. -/
  lastPubAddr : Option Nat
  lastHpClt : Option Nat

/-- The calls that post a task. `create` comes with what `new` and the constructor give. -/
inductive EngineRequest (Ep : Type) where
  | create (p : Nat) (sock : Endpoint)
  | close (p : Nat)
  | clear
  | asyncPubAddr (p : Nat) (serverHostname : List UChar) (serverPort : Half) (handler : Nat)
  | asyncHolePunch (p : Nat) (eps : List Ep) (handler : Nat)
  | asyncConnect (p handler : Nat)
  | asyncAccept (p handler : Nat)
  | asyncSend (p : Nat) (op : SendOperation)
  | asyncReceive (p : Nat) (op : RecvOperation)
  | asyncShutdown (p handler : Nat)
  | cancel (p : Nat)
  | setsockopt (p optname : Nat) (value : Word)
  | getsockopt (p optname : Nat)
  | pendingData (p : Nat)

/-- A task in the queue: a request, or a completion posted by the helper object `helper`. -/
inductive EngineTask (Ep : Type) where
  | request (r : EngineRequest Ep)
  | handleAsyncPubAddr (helper p : Nat) (notice : PubAddrNotice Ep)
  | handleAsyncHolePunch (helper p : Nat) (notice : HpNotice Ep)

/-- What a task hands back, to a caller that waits or to a user's handler. -/
inductive EngineAnswer (Ep : Type) where
  | setsockopt (result : Int)
  | getsockopt (result : Int) (value : Option Word)
  | pendingData (size : Word)
  | pubAddr (helper : Nat) (notice : PubAddrNotice Ep)
  | holePunch (helper : Nat) (notice : HpNotice Ep)

structure UdtEngine (Ep : Type) where
  env : PubAddrEnv Ep
  sockets : Nat → Option (UdtEngineSocket Ep)
  /-- The queue of `ios_`. -/
  tasks : List (EngineTask Ep)
  /-- `udp_pub_addr::s_trid_`. -/
  sTrid : Word
  answers : List (EngineAnswer Ep)
  /-- History: every pointer a task dereferenced, and whether it was a member then. -/
  touched : List (Nat × Bool)
  /-- History: how many helper objects of each kind there have been. -/
  pubAddrs : Nat
  hpClts : Nat

namespace Endpoint

/-- `setsockopt`: its result and the socket. -/
def setsockopt (s : Endpoint) (optname : Nat) (value : Word) : Int × Endpoint :=
  match optname with
  | 1 => (0, s.setKeepalive (value ≠ 0))
  | 2 => (0, s.setSndBuf value)
  | 3 => (0, s.setRcvBuf value)
  | _ => (-1, s)

/-- `getsockopt`: its result and the value written. -/
def getsockopt (s : Endpoint) (optname : Nat) : Int × Option Word :=
  match optname with
  | 1 => (0, some (if s.sk.keepalive then 1 else 0))
  | 2 => (0, some s.sk.sndBuf.hiwat)
  | 3 => (0, some s.sk.rcvBuf.hiwat)
  | _ => (-1, none)

end Endpoint

namespace UdtEngine

variable {Ep : Type}

def init (env : PubAddrEnv Ep) : UdtEngine Ep where
  env := env
  sockets := fun _ => none
  tasks := []
  sTrid := 0
  answers := []
  touched := []
  pubAddrs := 0
  hpClts := 0

def socketExists (s : UdtEngine Ep) (p : Nat) : Bool := (s.sockets p).isSome

/-- A dereference of `p`. -/
def touch (s : UdtEngine Ep) (p : Nat) : UdtEngine Ep :=
  { s with touched := s.touched ++ [(p, s.socketExists p)] }

def answer (s : UdtEngine Ep) (a : EngineAnswer Ep) : UdtEngine Ep :=
  { s with answers := s.answers ++ [a] }

def setSocket (s : UdtEngine Ep) (p : Nat) (x : Option (UdtEngineSocket Ep)) : UdtEngine Ep :=
  { s with sockets := Function.update s.sockets p x }

def create_ (s : UdtEngine Ep) (p : Nat) (sock : Endpoint) : UdtEngine Ep :=
  s.setSocket p (some ⟨sock, none, none, none, none⟩)

def close_ (s : UdtEngine Ep) (p : Nat) : UdtEngine Ep :=
  if s.socketExists p then (s.touch p).setSocket p none else s

/-- `clear_` deletes the members and empties the set. -/
def clear_ (s : UdtEngine Ep) : UdtEngine Ep := { s with sockets := fun _ => none }

/-- What a helper has posted, beyond the first `before` notices, goes to the end of the queue. -/
def postPubAddr (s : UdtEngine Ep) (p : Nat) (helper : Helper (PubAddr Ep)) (before : Nat) :
    UdtEngine Ep :=
  let posted := helper.obj.posted.drop before
  { s with tasks := s.tasks ++ posted.map (.handleAsyncPubAddr helper.id p) }

def postHolePunch (s : UdtEngine Ep) (p : Nat) (helper : Helper (HpClt Ep)) (before : Nat) :
    UdtEngine Ep :=
  let posted := helper.obj.posted.drop before
  { s with tasks := s.tasks ++ posted.map (.handleAsyncHolePunch helper.id p) }

def asyncPubAddr_ (s : UdtEngine Ep) (p : Nat) (serverHostname : List UChar) (serverPort : Half)
    (handler : Nat) : UdtEngine Ep :=
  match s.sockets p with
  | none => s
  | some x =>
      let (sTrid, obj) :=
        (PubAddr.init s.env serverHostname serverPort).asyncPubAddr s.sTrid handler
      let helper : Helper (PubAddr Ep) := ⟨s.pubAddrs, obj⟩
      let s := { s.touch p with sTrid, pubAddrs := s.pubAddrs + 1 }
      (s.setSocket p (some { x with pubAddr := some helper, lastPubAddr := some helper.id })
        ).postPubAddr p helper 0

def handleAsyncPubAddr (s : UdtEngine Ep) (helper p : Nat) (notice : PubAddrNotice Ep) :
    UdtEngine Ep :=
  match s.sockets p with
  | none => s
  | some x =>
      ((s.touch p).setSocket p (some { x with pubAddr := none })).answer (.pubAddr helper notice)

def handleAsyncHolePunch (s : UdtEngine Ep) (helper p : Nat) (notice : HpNotice Ep) :
    UdtEngine Ep :=
  match s.sockets p with
  | none => s
  | some x =>
      ((s.touch p).setSocket p (some { x with hpClt := none })).answer (.holePunch helper notice)

/-- The form of the requests that are passed on to the `udt_socket`. -/
def onSocket (s : UdtEngine Ep) (p : Nat) (f : Endpoint → Endpoint) : UdtEngine Ep :=
  match s.sockets p with
  | none => s
  | some x => (s.touch p).setSocket p (some { x with sock := f x.sock })

def asyncConnect_ (s : UdtEngine Ep) (p handler : Nat) : UdtEngine Ep :=
  s.onSocket p (·.asyncConnect handler)

def asyncAccept_ (s : UdtEngine Ep) (p handler : Nat) : UdtEngine Ep :=
  s.onSocket p (·.asyncAccept handler)

def asyncSend_ (s : UdtEngine Ep) (p : Nat) (op : SendOperation) : UdtEngine Ep :=
  s.onSocket p (·.asyncSend op)

def asyncReceive_ (s : UdtEngine Ep) (p : Nat) (op : RecvOperation) : UdtEngine Ep :=
  s.onSocket p (·.asyncReceive op)

def asyncShutdown_ (s : UdtEngine Ep) (p handler : Nat) : UdtEngine Ep :=
  s.onSocket p (·.asyncShutdown handler)

def cancel_ (s : UdtEngine Ep) (p : Nat) : UdtEngine Ep := s.onSocket p (·.cancel)

def setsockopt_ (s : UdtEngine Ep) (p optname : Nat) (value : Word) : UdtEngine Ep :=
  match s.sockets p with
  | none => s.answer (.setsockopt (-1))
  | some x =>
      let (result, sock) := x.sock.setsockopt optname value
      ((s.touch p).setSocket p (some { x with sock })).answer (.setsockopt result)

def getsockopt_ (s : UdtEngine Ep) (p optname : Nat) : UdtEngine Ep :=
  match s.sockets p with
  | none => s.answer (.getsockopt (-1) none)
  | some x =>
      let (result, value) := x.sock.getsockopt optname
      (s.touch p).answer (.getsockopt result value)

/-- `pending_data_`; the result for a socket that does not exist is `-1` as a `size_t`. -/
def pendingData_ (s : UdtEngine Ep) (p : Nat) : UdtEngine Ep :=
  match s.sockets p with
  | none => s.answer (.pendingData (-1))
  | some x => (s.touch p).answer (.pendingData x.sock.sk.pendingData)

variable [LinearOrder Ep]

/-- `async_hole_punch_` goes on when the socket does not exist. What it does to freed memory is
undefined; only the access is recorded. -/
def asyncHolePunch_ (s : UdtEngine Ep) (p : Nat) (eps : List Ep) (handler : Nat) : UdtEngine Ep :=
  match s.sockets p with
  | none => s.touch p
  | some x =>
      let helper : Helper (HpClt Ep) := ⟨s.hpClts, HpClt.init.asyncHolePunch handler eps⟩
      let s := { s.touch p with hpClts := s.hpClts + 1 }
      (s.setSocket p (some { x with hpClt := some helper, lastHpClt := some helper.id })
        ).postHolePunch p helper 0

def runRequest (s : UdtEngine Ep) : EngineRequest Ep → UdtEngine Ep
  | .create p sock => s.create_ p sock
  | .close p => s.close_ p
  | .clear => s.clear_
  | .asyncPubAddr p serverHostname serverPort handler =>
      s.asyncPubAddr_ p serverHostname serverPort handler
  | .asyncHolePunch p eps handler => s.asyncHolePunch_ p eps handler
  | .asyncConnect p handler => s.asyncConnect_ p handler
  | .asyncAccept p handler => s.asyncAccept_ p handler
  | .asyncSend p op => s.asyncSend_ p op
  | .asyncReceive p op => s.asyncReceive_ p op
  | .asyncShutdown p handler => s.asyncShutdown_ p handler
  | .cancel p => s.cancel_ p
  | .setsockopt p optname value => s.setsockopt_ p optname value
  | .getsockopt p optname => s.getsockopt_ p optname
  | .pendingData p => s.pendingData_ p

def runTask (s : UdtEngine Ep) : EngineTask Ep → UdtEngine Ep
  | .request r => s.runRequest r
  | .handleAsyncPubAddr helper p notice => s.handleAsyncPubAddr helper p notice
  | .handleAsyncHolePunch helper p notice => s.handleAsyncHolePunch helper p notice

/-- What can happen: a call posts its request; the `io_service` runs the first task; an
asynchronous operation of a socket or of a helper completes, which its tracker lets through only
while the object is alive. -/
inductive Event (Ep : Type) where
  | call (r : EngineRequest Ep)
  | run
  | socket (p : Nat) (e : UdtBoost.Event)
  | pubAddr (p : Nat) (e : PubAddr.Event Ep)
  | hpClt (p : Nat) (e : HpClt.Event Ep)

def step (s : UdtEngine Ep) : Event Ep → UdtEngine Ep
  | .call r => { s with tasks := s.tasks ++ [.request r] }
  | .run =>
      match s.tasks with
      | [] => s
      | task :: rest => { s with tasks := rest }.runTask task
  | .socket p e =>
      match s.sockets p with
      | none => s
      | some x => s.setSocket p (some { x with sock := x.sock.step e })
  | .pubAddr p e =>
      match s.sockets p with
      | none => s
      | some x =>
          match x.pubAddr with
          | none => s
          | some old =>
              let (sTrid, obj) := old.obj.step s.sTrid e
              let helper : Helper (PubAddr Ep) := ⟨old.id, obj⟩
              ({ s with sTrid }.setSocket p (some { x with pubAddr := some helper })).postPubAddr p
                helper old.obj.posted.length
  | .hpClt p e =>
      match s.sockets p with
      | none => s
      | some x =>
          match x.hpClt with
          | none => s
          | some old =>
              let helper : Helper (HpClt Ep) := ⟨old.id, old.obj.step e⟩
              (s.setSocket p (some { x with hpClt := some helper })).postHolePunch p helper
                old.obj.posted.length

def run (s : UdtEngine Ep) (es : List (Event Ep)) : UdtEngine Ep := es.foldl step s

end UdtEngine
end UdtBoost
