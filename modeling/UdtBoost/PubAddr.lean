import UdtBoost.HpClt

/-! `udp_pub_addr.h` and `udp_pub_addr.cpp`: asking a server for one's public address. -/
namespace UdtBoost

/-- What the object finds outside: address conversion and the results of `send_to`. -/
structure PubAddrEnv (Ep : Type) where
  /-- The host name read as an address, with the port. -/
  literal : List UChar → Half → Option Ep
  /-- `address_v4::from_string` with its error ignored, and the port. -/
  endpoint : List UChar → Half → Ep
  /-- The result of the `n`-th `send_to` with the transaction number. -/
  sendTo : Word → Nat → HpError

structure PubAddrNotice (Ep : Type) where
  handler : Nat
  error : HpError
  ep : Option Ep

structure PubAddr (Ep : Type) where
  env : PubAddrEnv Ep
  serverHostname : List UChar
  serverPort : Half
  /-- `server_ep_`, unless it is the default endpoint. -/
  serverEp : Option Ep
  handler : Nat
  pubAddrEp : Option Ep
  trid : Word
  lastError : HpError
  /-- How many `async_resolve`, `async_receive_from` and `async_wait` are outstanding. -/
  resolves : Nat
  receives : Nat
  waits : Nat
  /-- The endpoint and the text of every `send_to`. -/
  sent : List (Ep × List UChar)
  posted : List (PubAddrNotice Ep)

namespace PubAddr

def DFT_SEND_COUNT : Nat := 5

def ascii (c : Char) : UChar := BitVec.ofNat 8 c.toNat

/-- `strchr` past the character found, in a string that ends at its first zero. -/
def after (c : Char) (str : List UChar) : Option (List UChar) :=
  match (str.takeWhile (· ≠ 0)).dropWhile (· ≠ ascii c) with
  | [] => none
  | _ :: rest => some rest

def isDigit (c : UChar) : Bool := ascii '0' ≤ c && c ≤ ascii '9'

def isSpace (c : UChar) : Bool := c = ascii ' ' || (9 ≤ c && c ≤ 13)

/-- `atoi`; a number that does not fit is undefined there and wraps here. -/
def atoi (str : List UChar) : Word :=
  let number (str : List UChar) : Word :=
    (str.takeWhile isDigit).foldl (fun n c => 10 * n + (c.setWidth 32 - 48)) 0
  match str.dropWhile isSpace with
  | [] => 0
  | c :: rest =>
      if c = ascii '-' then -number rest
      else if c = ascii '+' then number rest
      else number (c :: rest)

/-- `parse_endpoint`: the text between the first colon, past its blanks, and the last one, and the
number behind that. -/
def parseEndpoint (env : PubAddrEnv Ep) (str : List UChar) : Option Ep :=
  match str.findIdx? (· = ascii ':') with
  | none => none
  | some first =>
      let pos := first + 1 + ((str.drop (first + 1)).takeWhile (· = ascii ' ')).length
      let last := str.length - 1 - str.reverse.findIdx (· = ascii ':')
      let ip := if last < pos then str.drop pos else (str.drop pos).take (last - pos)
      some (env.endpoint ip ((atoi (str.drop (last + 1))).setWidth 16))

/-- The decimal digits of a transaction number. -/
def decimal (n : Word) : List UChar := (Nat.toDigits 10 n.toNat).map ascii

variable {Ep : Type}

/-- A new object after `create`. -/
def init (env : PubAddrEnv Ep) (serverHostname : List UChar) (serverPort : Half) : PubAddr Ep where
  env := env
  serverHostname := serverHostname
  serverPort := serverPort
  serverEp := none
  handler := 0
  pubAddrEp := none
  trid := 0
  lastError := .success
  resolves := 0
  receives := 0
  waits := 0
  sent := []
  posted := []

def notify (s : PubAddr Ep) : PubAddr Ep :=
  { s with posted := s.posted ++ [⟨s.handler, s.lastError, s.pubAddrEp⟩] }

/-- `async_receive`, and the `async_wait` in it. -/
def asyncReceive (s : PubAddr Ep) : PubAddr Ep :=
  { s with waits := s.waits + 1, receives := s.receives + 1 }

/-- The sending loop from the `i`-th round on. -/
def sendLoop (s : PubAddr Ep) (server : Ep) (i : Nat) : Nat → PubAddr Ep
  | 0 => s
  | rounds + 1 =>
      let text := [ascii 'A', ascii '='] ++ decimal s.trid
      let sent := s.sent ++ [(server, text)]
      match s.env.sendTo s.trid i with
      | .success => sendLoop { s with sent } server (i + 1) rounds
      | e => { s with sent, lastError := e }.notify

/-- `send_request`, with `s_trid_` before and after it. -/
def sendRequest (s : PubAddr Ep) (sTrid : Word) (server : Ep) : Word × PubAddr Ep :=
  let trid := sTrid + 1
  (trid, { s with trid }.asyncReceive.sendLoop server 0 DFT_SEND_COUNT)

/-- `async_pub_addr` and `async_resolve`. -/
def asyncPubAddr (s : PubAddr Ep) (sTrid : Word) (handler : Nat) : Word × PubAddr Ep :=
  let s := { s with handler, pubAddrEp := none }
  match s.serverEp with
  | some server => s.sendRequest sTrid server
  | none =>
      match s.env.literal s.serverHostname s.serverPort with
      | some server => { s with serverEp := some server }.sendRequest sTrid server
      | none => (sTrid, { s with resolves := s.resolves + 1 })

/-- `handle_async_resolve`. -/
def handleAsyncResolve (s : PubAddr Ep) (sTrid : Word) (e : HpError) (found : Option Ep) :
    Word × PubAddr Ep :=
  match e, found with
  | .operationAborted, _ => (sTrid, s)
  | .success, some server => { s with serverEp := some server }.sendRequest sTrid server
  | e, _ => (sTrid, { s with lastError := e }.notify)

/-- The answer in a packet: the endpoint behind the bar, when the transaction number is ours. -/
def reply (s : PubAddr Ep) (buf : List UChar) : Option Ep :=
  match after '=' buf with
  | none => none
  | some number =>
      if atoi number = s.trid then
        (after '|' buf).bind fun str => parseEndpoint s.env (str.takeWhile (· ≠ 0))
      else none

variable [DecidableEq Ep]

/-- `handle_async_receive` of `buf` from `remote`. -/
def handleAsyncReceive (s : PubAddr Ep) (e : HpError) (remote : Ep) (buf : List UChar) :
    PubAddr Ep :=
  if e = .operationAborted then s
  else if e = .success ∧ buf ≠ [] then
    match if s.serverEp = some remote then s.reply buf else none with
    | some ep => { s with pubAddrEp := some ep }.notify
    | none => s.asyncReceive
  else { s with lastError := e }.notify

omit [DecidableEq Ep] in
def handleAsyncWait (s : PubAddr Ep) (e : HpError) : PubAddr Ep :=
  if e = .operationAborted then s else { s with lastError := .timedOut }.notify

/-- The completions an object can see while it is alive. -/
inductive Event (Ep : Type) where
  | resolved (e : HpError) (found : Option Ep)
  | received (e : HpError) (remote : Ep) (buf : List UChar)
  | waited (e : HpError)

/-- Whether such an operation is outstanding. -/
def Pending (s : PubAddr Ep) : Event Ep → Bool
  | .resolved _ _ => s.resolves ≠ 0
  | .received _ _ _ => s.receives ≠ 0
  | .waited _ => s.waits ≠ 0

/-- One completion, with `s_trid_` before and after it. -/
def step (s : PubAddr Ep) (sTrid : Word) (e : Event Ep) : Word × PubAddr Ep :=
  if s.Pending e then
    match e with
    | .resolved e found => { s with resolves := s.resolves - 1 }.handleAsyncResolve sTrid e found
    | .received e remote buf =>
        (sTrid, { s with receives := s.receives - 1 }.handleAsyncReceive e remote buf)
    | .waited e => (sTrid, { s with waits := s.waits - 1 }.handleAsyncWait e)
  else (sTrid, s)

end PubAddr
end UdtBoost
