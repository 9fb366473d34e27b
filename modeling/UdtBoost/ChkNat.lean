import UdtBoost.PubAddr

/-! `udp_chknat.h` and `udp_chknat.cpp`: finding out the kind of NAT from the answers of two servers.
The reply handlers here and in `udp_pub_addr` work on a buffer that the datagram may fill. -/
namespace UdtBoost

/-- Where a reply handler leaves its memory or throws. -/
inductive ReplyFault where
  /-- A write to `rcv_buf_` at this offset. -/
  | terminator (offset : Nat)
  /-- A text in `rcv_buf_` without its end. -/
  | unterminated
  /-- `operator[]` or `c_str()` beyond the end of a string. -/
  | subscript
  /-- The exception of `substr`. -/
  | outOfRange
  /-- A write to `nat_info_.eps` and `resp_bitmap_` at this index. -/
  | record (idx : Word)
  deriving DecidableEq, Repr

namespace Reply

open PubAddr (ascii after)

def DFT_RCV_BUF_SIZE : Nat := 2048

abbrev RcvBuf := Vector UChar DFT_RCV_BUF_SIZE

/-- What `async_receive_from` can put into the buffer. -/
abbrev Received := { bytes : List UChar // bytes.length ≤ DFT_RCV_BUF_SIZE }

def receive (buf : RcvBuf) (d : Received) : RcvBuf :=
  Vector.ofFn fun i => d.val.getD i buf[i]

/-- `rcv_buf_[offset] = '\0'`. -/
def terminate (buf : RcvBuf) (offset : Nat) : Except ReplyFault RcvBuf :=
  if inside : offset < DFT_RCV_BUF_SIZE then .ok (buf.set offset 0) else .error (.terminator offset)

/-- The text at the head of the buffer, as `strchr` reads it. -/
def text (buf : RcvBuf) : Except ReplyFault (List UChar) :=
  if 0 ∈ buf.toList then .ok (buf.toList.takeWhile (· ≠ 0)) else .error .unterminated

/-- The string from `pos` on. -/
def suffixFrom (str : List UChar) (pos : Nat) : Except ReplyFault (List UChar) :=
  if pos ≤ str.length then .ok (str.drop pos) else .error .subscript

def substr (str : List UChar) (pos count : Nat) : Except ReplyFault (List UChar) :=
  if pos ≤ str.length then .ok ((str.drop pos).take count) else .error .outOfRange

def rfind (c : Char) (str : List UChar) : Option Nat :=
  (str.reverse.findIdx? (· = ascii c)).map (str.length - 1 - ·)

variable {Ep : Type}

/-- `parse_endpoint`, the same in both classes. The count given to `substr` may wrap. -/
def parseEndpoint (endpoint : List UChar → Half → Ep) (atoi : List UChar → Word)
    (str : List UChar) : Except ReplyFault (Option Ep) :=
  match str.findIdx? (· = ascii ':') with
  | none => .ok none
  | some first => do
      let blanks ← suffixFrom str (first + 1)
      let pos := first + 1 + (blanks.takeWhile (· = ascii ' ')).length
      match rfind ':' str with
      | none => .ok none
      | some last => do
          let ip ← substr str pos (BitVec.ofNat 32 last - BitVec.ofNat 32 pos).toNat
          let port ← suffixFrom str (last + 1)
          return some (endpoint ip ((atoi port).setWidth 16))

/-- The number that `atoi` reads. -/
def number (str : List UChar) : Int :=
  let digits (str : List UChar) : Int :=
    (str.takeWhile PubAddr.isDigit).foldl (fun n c => 10 * n + (c.toNat - 48)) 0
  match str.dropWhile PubAddr.isSpace with
  | [] => 0
  | c :: rest =>
      if c = ascii '-' then -digits rest
      else if c = ascii '+' then digits rest
      else digits (c :: rest)

/-- `atoi`, with what the library returns for a number beyond an `int`. -/
def atoi (overflow : Int → Word) (str : List UChar) : Word :=
  let n := number str
  if -2 ^ 31 ≤ n ∧ n < 2 ^ 31 then BitVec.ofInt 32 n else overflow n

end Reply

open Reply

inductive NatType where
  | none | fwBlock | wan | symmetric | fullCone | portRestrictCone | restrictCone
  deriving DecidableEq, Repr

structure NatInfo (Ep : Type) where
  natType : NatType
  eps : Vector Ep 4

/-- What the object finds outside. -/
structure ChkNatEnv (Ep : Type) where
  /-- The default endpoint. -/
  unset : Ep
  /-- `address_v4::from_string` with its error ignored, and the port. -/
  endpoint : List UChar → Half → Ep
  port : Ep → Half
  /-- `get_local_endpoints_v4` with the port of the socket. -/
  localEps : List Ep
  overflow : Int → Word

structure ChkNat (Ep : Type) where
  env : ChkNatEnv Ep
  /-- `tracker_` is set. -/
  tracked : Bool
  handler : Nat
  serverEps : Vector Ep 2
  natInfo : NatInfo Ep
  respBitmap : Vector Bool 4
  rcvBuf : RcvBuf
  lastError : HpError
  /-- The indices whose `async_resolve` was started, and how many other operations were. -/
  resolves : List Nat
  receives : Nat
  waits : Nat
  /-- The endpoint and the text of every `send_to`. -/
  sent : List (Ep × List UChar)
  posted : List (HpError × NatInfo Ep)

namespace ChkNat

open PubAddr (ascii after)

def DFT_SEND_COUNT : Nat := 5

variable {Ep : Type} (s : ChkNat Ep)

/-- `create`. -/
def create : ChkNat Ep := { s with tracked := true, respBitmap := Vector.replicate 4 false }

def cancel : ChkNat Ep := { s with tracked := false }

def notify : ChkNat Ep :=
  let s := s.cancel
  { s with posted := s.posted ++ [(s.lastError, s.natInfo)] }

/-- `async_receive`, and the `async_wait` in it. -/
def asyncReceive : ChkNat Ep := { s with waits := s.waits + 1, receives := s.receives + 1 }

/-- The texts of the requests. -/
def requests : List (List UChar) :=
  ["A=0", "A=1", "B=2", "C=3"].map fun request => request.toList.map ascii

/-- `send_request`: the first request goes to the first server, the others to the second. -/
def sendRequest : ChkNat Ep :=
  let s := s.asyncReceive
  { s with
    sent := s.sent ++ requests.zipIdx.flatMap fun (request, i) =>
      List.replicate DFT_SEND_COUNT (if i = 0 then s.serverEps[0] else s.serverEps[1], request) }

def asyncResolveServer (idx : Nat) : ChkNat Ep := { s with resolves := s.resolves ++ [idx] }

section Endpoints

variable [DecidableEq Ep]

/-- `async_chknat`. -/
def asyncChknat (handler : Nat) : ChkNat Ep :=
  let s := { s with handler }
  let s' := if s.serverEps[0] = s.env.unset then s.asyncResolveServer 0 else s
  let s' := if s.serverEps[1] = s.env.unset then s'.asyncResolveServer 1 else s'
  if s.serverEps[0] = s.env.unset ∨ s.serverEps[1] = s.env.unset then s' else s'.sendRequest

/-- `handle_async_resolve_server`. -/
def handleAsyncResolveServer (e : HpError) (found : Option Ep) (idx : Fin 2) : ChkNat Ep :=
  if s.tracked = false then s
  else
    match e, found with
    | .success, some ep =>
        let s := { s with serverEps := s.serverEps.set idx ep }
        if s.serverEps[0] ≠ s.env.unset ∧ s.serverEps[1] ≠ s.env.unset then s.sendRequest else s
    | e, _ => { s with lastError := e }.notify

/-- The kind of NAT that `analyze` finds in what was recorded. -/
def natType : NatType :=
  let eps := s.natInfo.eps
  if eps[0] = s.env.unset then .fwBlock
  else if eps[0] ∈ s.env.localEps then .wan
  else if s.env.port eps[0] ≠ s.env.port eps[1] then .symmetric
  else if eps[2] ≠ s.env.unset ∧ eps[3] ≠ s.env.unset then .fullCone
  else if eps[2] = s.env.unset ∧ eps[3] = s.env.unset then .portRestrictCone
  else .restrictCone

def analyze : ChkNat Ep := { s with natInfo := { s.natInfo with natType := s.natType } }.notify

omit [DecidableEq Ep] in
def finish : Bool := s.respBitmap[0] && s.respBitmap[1] && s.respBitmap[2] && s.respBitmap[3]

omit [DecidableEq Ep] in
/-- The assignments to `nat_info_.eps[idx]` and `resp_bitmap_[idx]`. -/
def record (idx : Word) (ep : Ep) : Except ReplyFault (ChkNat Ep) :=
  if inside : idx.toNat < 4 then
    .ok { s with
      natInfo := { s.natInfo with eps := s.natInfo.eps.set idx.toNat ep }
      respBitmap := s.respBitmap.set idx.toNat true }
  else .error (.record idx)

/-- The reply in the buffer. The index is compared with an unsigned count. -/
def handleReply (text : List UChar) : Except ReplyFault (ChkNat Ep) :=
  match after '=' text with
  | none => .ok s.asyncReceive
  | some cp =>
      let idx := Reply.atoi s.env.overflow cp
      if 0 ≤ idx.toInt ∨ idx.toNat < 4 then
        match after '|' text with
        | none => .ok s.asyncReceive
        | some str => do
            match ← Reply.parseEndpoint s.env.endpoint (Reply.atoi s.env.overflow) str with
            | none => .ok s.asyncReceive
            | some ep =>
                let s ← s.record idx ep
                return if s.finish then s.analyze else s.asyncReceive
      else .ok s.asyncReceive

/-- `handle_async_receive` of a datagram from `remote`. -/
def handleAsyncReceive (e : HpError) (remote : Ep) (d : Received) :
    Except ReplyFault (ChkNat Ep) :=
  let s := { s with rcvBuf := receive s.rcvBuf d }
  if s.tracked = false ∨ e = .operationAborted then .ok s
  else if e = .success ∧ 0 < d.val.length then
    if remote ∈ s.serverEps.toList then do
      let rcvBuf ← terminate s.rcvBuf d.val.length
      { s with rcvBuf }.handleReply (← text rcvBuf)
    else .ok s.asyncReceive
  else .ok { s with lastError := e }.notify

/-- `handle_async_wait`. -/
def handleAsyncWait (e : HpError) : ChkNat Ep :=
  if s.tracked = false ∨ e = .operationAborted then s else s.analyze

end Endpoints

end ChkNat

namespace PubAddr

variable {Ep : Type} [DecidableEq Ep] (s : PubAddr Ep)

/-- The reply in the buffer. -/
def handleReply (text : List UChar) : Except ReplyFault (PubAddr Ep) :=
  match after '=' text with
  | none => .ok s.asyncReceive
  | some cp =>
      if atoi cp = s.trid then
        match after '|' text with
        | none => .ok s.asyncReceive
        | some str => do
            match ← Reply.parseEndpoint s.env.endpoint atoi str with
            | none => .ok s.asyncReceive
            | some ep => .ok { s with pubAddrEp := some ep }.notify
      else .ok s.asyncReceive

/-- `handle_async_receive` with `rcv_buf_`. -/
def handleInBuffer (rcvBuf : RcvBuf) (e : HpError) (remote : Ep) (d : Received) :
    Except ReplyFault (PubAddr Ep) :=
  let rcvBuf := receive rcvBuf d
  if e = .operationAborted then .ok s
  else if e = .success ∧ 0 < d.val.length then
    if s.serverEp = some remote then do
      let rcvBuf ← terminate rcvBuf d.val.length
      s.handleReply (← text rcvBuf)
    else .ok s.asyncReceive
  else .ok { s with lastError := e }.notify

end PubAddr
end UdtBoost
