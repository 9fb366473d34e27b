import UdtBoost.Defs

/-! `udp_hp_clt.h` and `udp_hp_clt.cpp`: hole punching towards candidate endpoints. The
asynchronous operations that are outstanding are part of the state, and each of their completions
is an event. -/
namespace UdtBoost

/-- `endpoint_info_t::state_t`. -/
inductive HpState where
  | closed | listen | synSent | synReceived | established
  deriving DecidableEq, Repr

/-- `boost::system::error_code`, as far as its values are told apart. -/
inductive HpError where
  | success | operationAborted | timedOut | other (code : Nat)
  deriving DecidableEq, Repr

/-- `endpoint_info_t`; `snd_buf` is a header in network order, or empty. -/
structure EndpointInfo where
  sndBuf : Option UdtHdr
  state : HpState
  deriving DecidableEq, Repr

/-- One `post` of `notify`: the handler with its two arguments. -/
structure HpNotice (Ep : Type) where
  handler : Nat
  error : HpError
  eps : List Ep
  deriving DecidableEq, Repr

structure HpClt (Ep : Type) where
  /-- `peer_eps_`, in the order of the map. -/
  peerEps : List (Ep × EndpointInfo)
  handler : Nat
  lastError : HpError
  /-- An `async_receive_from` is outstanding. -/
  receiving : Bool
  /-- The `remain_count` of the outstanding `async_wait`. -/
  waiting : Option Nat
  /-- Every `send_to`. -/
  sent : List (Ep × UdtHdr)
  posted : List (HpNotice Ep)

namespace EndpointInfo

/-- `prepare_send_peer_data`. -/
def prepareSendPeerData (flags : UChar) : UdtHdr :=
  UdtHdr.hton
    { ver := 0, flags := flags ||| UdtHdr.TH_HP, win := 0, len := 0
      off := BitVec.ofNat 16 UdtHdr.size, seq := 0, ack := 0, pseq := 0 }

/-- The `switch` of `output`. -/
def prepare (info : EndpointInfo) : EndpointInfo :=
  match info.state with
  | .synSent => { info with sndBuf := some (prepareSendPeerData UdtHdr.TH_SYN) }
  | .synReceived =>
      { info with sndBuf := some (prepareSendPeerData (UdtHdr.TH_SYN ||| UdtHdr.TH_ACK)) }
  | .established => { info with sndBuf := some (prepareSendPeerData UdtHdr.TH_ACK) }
  | .closed | .listen => info

/-- A SYN is answered once. -/
def needOutput (info : EndpointInfo) (hdr : UdtHdr) : Bool :=
  hasSyn hdr.flags && (info.state = .closed || info.state = .synSent)

/-- What the flags of a packet make of the state. -/
def respond (info : EndpointInfo) (hdr : UdtHdr) : EndpointInfo :=
  let info := if info.needOutput hdr then { info with state := .synReceived } else info
  if hasAck hdr.flags && info.state = .synReceived then { info with state := .established }
  else info

end EndpointInfo

namespace HpClt

def DFT_SEND_PACKETS : Nat := 3
def DFT_TIMEOUT_COUNT : Nat := 20

variable {Ep : Type}

/-- A created object, its socket bound. -/
def init : HpClt Ep where
  peerEps := []
  handler := 0
  lastError := .success
  receiving := false
  waiting := none
  sent := []
  posted := []

def asyncReceive (s : HpClt Ep) : HpClt Ep := { s with receiving := true }

/-- The endpoints that are established, in the order of the map. -/
def establishedEps (s : HpClt Ep) : List Ep :=
  (s.peerEps.filter (·.2.state = .established)).map Prod.fst

def notify (s : HpClt Ep) : HpClt Ep :=
  { s with posted := s.posted ++ [⟨s.handler, s.lastError, s.establishedEps⟩] }

def output (s : HpClt Ep) : HpClt Ep :=
  let peers := s.peerEps.map fun peer => (peer.1, peer.2.prepare)
  let packets (peer : Ep × EndpointInfo) : List (Ep × UdtHdr) :=
    match peer.2.sndBuf with
    | some buf => List.replicate DFT_SEND_PACKETS (peer.1, buf)
    | none => []
  { s with peerEps := peers, sent := s.sent ++ peers.flatMap packets }

def asyncWait (s : HpClt Ep) (remainCount : Nat) : HpClt Ep :=
  if remainCount = 0 then { s with lastError := .timedOut }.notify
  else { s with waiting := some remainCount }

/-- The completion of the timer's wait. -/
def handleAsyncTimeout (s : HpClt Ep) (e : HpError) : HpClt Ep :=
  match s.waiting with
  | none => s
  | some remainCount =>
      let s := { s with waiting := none }
      if e = .operationAborted then s else s.output.asyncWait (remainCount - 1)

variable [LinearOrder Ep]

/-- `peer_eps_.insert` and the state written through what it returns. -/
def insertPeer (ep : Ep) : List (Ep × EndpointInfo) → List (Ep × EndpointInfo)
  | [] => [(ep, ⟨none, .synSent⟩)]
  | peer :: rest =>
      if ep < peer.1 then (ep, ⟨none, .synSent⟩) :: peer :: rest
      else if ep = peer.1 then (ep, { peer.2 with state := .synSent }) :: rest
      else peer :: insertPeer ep rest

/-- `async_hole_punch`. -/
def asyncHolePunch (s : HpClt Ep) (handler : Nat) (eps : List Ep) : HpClt Ep :=
  let s := { s with handler, peerEps := eps.foldl (fun peers ep => insertPeer ep peers) s.peerEps }
  s.output.asyncReceive.asyncWait DFT_TIMEOUT_COUNT

/-- `peer_eps_.find`. -/
def find (s : HpClt Ep) (ep : Ep) : Option EndpointInfo :=
  (s.peerEps.find? (·.1 = ep)).map Prod.snd

/-- The entry of `ep` overwritten. -/
def setPeer (s : HpClt Ep) (ep : Ep) (info : EndpointInfo) : HpClt Ep :=
  { s with peerEps := s.peerEps.map fun peer => if peer.1 = ep then (ep, info) else peer }

def erase (s : HpClt Ep) (ep : Ep) : HpClt Ep :=
  { s with peerEps := s.peerEps.filter (·.1 ≠ ep) }

/-- `handle_peer_resp` for the entry `info` of `ep`. -/
def handlePeerResp (s : HpClt Ep) (ep : Ep) (info : EndpointInfo) (hdr : UdtHdr) (len : Nat) :
    HpClt Ep :=
  if len ≠ UdtHdr.size ∨ hasHp hdr.flags = false then s
  else if info.state = .established then s
  else
    let s' := s.setPeer ep (info.respond hdr)
    if info.needOutput hdr then s'.output else s'

/-- `handle_async_receive` without an error, from `ep`. -/
def handleReceived (s : HpClt Ep) (ep : Ep) (hdr : UdtHdr) (len : Nat) : HpClt Ep :=
  match s.find ep with
  | none => s.asyncReceive
  | some info =>
      let s := s.handlePeerResp ep info hdr len
      if (s.find ep).map EndpointInfo.state = some .established then s.notify else s.asyncReceive

/-- `handle_async_receive` with an error, `remote_ep_` being `ep`. -/
def handleReceiveError (s : HpClt Ep) (e : HpError) (ep : Ep) : HpClt Ep :=
  match s.find ep with
  | none => s.asyncReceive
  | some _ =>
      let s := s.erase ep
      if s.peerEps = [] then { s with lastError := e }.notify else s.asyncReceive

/-- The completions an object can see while it is alive. A packet is its header, in network order
as received, and the number of bytes. -/
inductive Event (Ep : Type) where
  | received (ep : Ep) (hdr : UdtHdr) (len : Nat)
  | receiveError (e : HpError) (ep : Ep)
  | timeout (e : HpError)

def step (s : HpClt Ep) : Event Ep → HpClt Ep
  | .received ep hdr len =>
      if s.receiving then { s with receiving := false }.handleReceived ep hdr len else s
  | .receiveError e ep =>
      if s.receiving then
        if e = .operationAborted then { s with receiving := false }
        else { s with receiving := false }.handleReceiveError e ep
      else s
  | .timeout e => s.handleAsyncTimeout e

def run (s : HpClt Ep) (es : List (Event Ep)) : HpClt Ep := es.foldl step s

end HpClt
end UdtBoost
