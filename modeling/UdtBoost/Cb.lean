import UdtBoost.Buf
import UdtBoost.SackOption

/-! `udt_cb.h`, `udt_cb.cpp` and the data members of `udt_socket.h`: the control
block, the socket around it, and one endpoint made of both. -/
namespace UdtBoost

/-- `udt_cb::state_t`. -/
inductive TcpState where
  | closed | listen | synSent | synReceived | established | closeWait
  | finWait1 | closing | lastAck | finWait2 | timeWait
  deriving DecidableEq, Repr

namespace TcpState

/-- The enumerator's value, for the code's order comparisons. -/
def value : TcpState → Nat
  | closed => 0 | listen => 1 | synSent => 2 | synReceived => 3 | established => 4
  | closeWait => 5 | finWait1 => 6 | closing => 7 | lastAck => 8 | finWait2 => 9 | timeWait => 10

/-- `s_tcp_outflags`. -/
def outflags : TcpState → UChar
  | closed => UdtHdr.TH_RST ||| UdtHdr.TH_ACK
  | listen => 0
  | synSent => UdtHdr.TH_SYN
  | synReceived => UdtHdr.TH_SYN ||| UdtHdr.TH_ACK
  | established | closeWait => UdtHdr.TH_ACK
  | finWait1 | closing | lastAck => UdtHdr.TH_FIN ||| UdtHdr.TH_ACK
  | finWait2 | timeWait => UdtHdr.TH_ACK

end TcpState

/-- `m_flags`, one field for each bit of `flags_t` the code uses. -/
structure CbFlags where
  acknow : Bool
  delack : Bool
  sentfin : Bool
  notifyRead : Bool
  notifyWrite : Bool
  packetConsumed : Bool
  notifyDrop : Bool
  needOutput : Bool
  needReset : Bool
  deriving DecidableEq, Repr

def PR_SLOWHZ : Nat := 2
def TCPTV_MSL : Half := 60
def TCPTV_PERSMIN : Half := 10
def TCPTV_PERSMAX : Half := 120
def TCPTV_KEEP_INIT : Half := 150
def TCPTV_KEEP_IDLE : Half := 14400
def TCPTV_KEEPINTVL : Half := 150
def TCPTV_KEEPCNT : Nat := 8
def TCPTV_MIN : Half := 2
def TCPTV_REXMTMAX : Half := 32
def TCP_MAXRXTSHIFT : Half := 12
def TCP_RTT_SHIFT : Nat := 3
def TCP_RTTVAR_SHIFT : Nat := 2
def TCP_MAXWIN : Word := 65535
def TCP_MAXCWIN : Word := TCP_MAXWIN
def DEFAULT_MTU_SIZE_BYTE : Nat := 1006

def sMss : Half := BitVec.ofNat 16 (DEFAULT_MTU_SIZE_BYTE - UdtHdr.MAX_ALL_HEADERS_SIZE)
def sIss : Word := 0
def sKeepidle : Half := TCPTV_KEEP_IDLE
def sKeepintvl : Half := TCPTV_KEEPINTVL
def sMaxidle : Int := TCPTV_KEEPCNT * TCPTV_KEEPINTVL.toInt
def sTcprexmtthresh : Half := 3

/-- `s_tcp_backoff`, read at `m_rxtshift`. -/
def sTcpBackoff : List Nat := [1, 2, 4, 8, 16, 32, 64, 64, 64, 64, 64, 64, 64]

def TCPT_RANGESET (value tvmin tvmax : Half) : Half :=
  if value.toInt < tvmin.toInt then tvmin
  else if tvmax.toInt < value.toInt then tvmax
  else value

structure UdtCb where
  state : TcpState
  force : Bool
  maxseg : Half
  flags : CbFlags
  sndUna : Word
  sndNxt : Word
  sndFack : Word
  retransData : Word
  iss : Word
  pseq : Word
  rcvWnd : Word
  rcvNxt : Word
  irs : Word
  rcvAdv : Word
  sndMax : Word
  rxtshift : Half
  rxtcur : Half
  rtt : Half
  rtseq : Word
  srtt : Half
  rttvar : Half
  rttmin : Half
  idle : Half
  tick : Word
  /-- `m_timers[TCPT_REXMT]`, and so on for the three below. -/
  tRexmt : Half
  tPersist : Half
  tKeep : Half
  t2msl : Half
  sndWl1 : Word
  sndWl2 : Word
  sndWnd : Word
  dupacks : Half
  sndCwnd : Word
  pcwnd : Word
  maxSndwnd : Word
  tstampFirst : Word
  tstampSecond : Word
  tstampThird : Word
  lastError : UdtError
  deriving DecidableEq, Repr

namespace UdtCb

/-- `init()`; `m_snd_fack` is not among the fields it sets. -/
def init (fack : Word) : UdtCb where
  state := .closed
  force := false
  maxseg := sMss
  flags := ⟨false, false, false, false, false, false, false, false, false⟩
  sndUna := 0
  sndNxt := 0
  sndFack := fack
  retransData := 0
  iss := 0
  pseq := 0
  rcvWnd := 0
  rcvNxt := 0
  irs := 0
  rcvAdv := 0
  sndMax := 0
  rxtshift := 0
  rxtcur := TCPT_RANGESET 6 TCPTV_MIN TCPTV_REXMTMAX
  rtt := 0
  rtseq := 0
  srtt := 0
  rttvar := 12
  rttmin := TCPTV_MIN
  idle := 0
  tick := 0
  tRexmt := 0
  tPersist := 0
  tKeep := 0
  t2msl := 0
  sndWl1 := 0
  sndWl2 := 0
  sndWnd := sMss.setWidth 32 <<< 3
  dupacks := 0
  sndCwnd := sMss.setWidth 32 <<< 3
  pcwnd := 0
  maxSndwnd := 0
  tstampFirst := 0
  tstampSecond := 0
  tstampThird := 0
  lastError := .succeed

def TCP_REXMTVAL (c : UdtCb) : Half := c.srtt.sshiftRight TCP_RTT_SHIFT + c.rttvar

def TCPS_HAVERCVDFIN (c : UdtCb) : Bool :=
  c.state == .closeWait || c.state == .timeWait || c.state == .closing

def TCPS_HAVESNDFIN (c : UdtCb) : Bool := c.flags.sentfin

def tcpSendseqinit (c : UdtCb) : UdtCb :=
  { c with sndFack := c.iss, sndUna := c.iss, sndNxt := c.iss, sndMax := c.iss }

def tcpRcvseqinit (c : UdtCb) : UdtCb := { c with rcvAdv := c.irs, rcvNxt := c.irs }

def isCwndFullOpen (c : UdtCb) : Bool := c.sndWnd ≤ c.sndCwnd

def remainSndWnd (c : UdtCb) : Word :=
  let remain := c.sndWnd - (c.sndNxt - c.sndUna)
  if remain.toInt < 0 then 0 else remain

def isPktLostRateIncr (c : UdtCb) : Bool :=
  let delta0 := c.tstampSecond - c.tstampFirst
  let delta1 := c.tstampThird - c.tstampSecond
  delta1 + delta1 >>> 2 < delta0

/-- Actual quantity of data outstanding in the network. -/
def bytesInflight (c : UdtCb) : Word :=
  let t := c.sndNxt - c.sndFack + c.retransData
  if t.toInt < 0 then 0 else t

def minCwnd (c : UdtCb) : Word := c.maxseg.setWidth 32 <<< 3

def slowStart (c : UdtCb) : UdtCb :=
  if c.isPktLostRateIncr then { c with sndCwnd := c.minCwnd + c.bytesInflight } else c

def incrSndCwnd (c : UdtCb) : UdtCb :=
  let seg : Word := c.maxseg.setWidth 32
  let incr :=
    if c.isPktLostRateIncr then
      let incr := seg * seg / c.sndCwnd
      if incr = 0 then 1 else incr
    else seg
  { c with sndCwnd := if c.sndCwnd + incr < TCP_MAXCWIN then c.sndCwnd + incr else TCP_MAXCWIN }

def decrSndCwnd (c : UdtCb) : UdtCb :=
  let cwnd := c.sndCwnd - c.sndCwnd >>> 2
  { c with sndCwnd := if cwnd < c.minCwnd then c.minCwnd else cwnd }

def updateSndFack (c : UdtCb) (ack : Word) : UdtCb :=
  if seqLt c.sndFack ack then { c with sndFack := ack } else c

def updateSndUna (c : UdtCb) (ack : Word) : UdtCb :=
  let c := { c with sndUna := ack }
  let c := if seqLt c.sndNxt ack then { c with sndNxt := ack } else c
  c.updateSndFack ack

def updateSndWnd (c : UdtCb) (win : Word) : UdtCb :=
  let c := { c with sndWnd := win }
  if c.maxSndwnd < win then { c with maxSndwnd := win } else c

/-- If all outstanding data is acked, stop the retransmit timer and remember to
restart; otherwise restart it with the current, possibly backed-off, value. -/
def resetRexmtTimer (c : UdtCb) : UdtCb :=
  if c.sndUna = c.sndMax then { c with tRexmt := 0, flags.needOutput := true }
  else if c.tPersist = 0 then { c with tRexmt := c.rxtcur }
  else c

def backoff (c : UdtCb) : Nat := sTcpBackoff.getD c.rxtshift.toNat 0

def rexmtTimerValue (c : UdtCb) : Half :=
  TCPT_RANGESET (c.TCP_REXMTVAL * BitVec.ofNat 16 c.backoff) c.rttmin TCPTV_REXMTMAX

def setMtu (c : UdtCb) (mtu : Nat) : UdtCb :=
  if UdtHdr.MAX_ALL_HEADERS_SIZE ≤ mtu then
    { c with maxseg := BitVec.ofNat 16 (mtu - UdtHdr.MAX_ALL_HEADERS_SIZE) }
  else c

def leavePersist (c : UdtCb) : UdtCb :=
  if c.tPersist ≠ 0 then { c with tPersist := 0, rxtshift := 0 } else c

def canceltimers (c : UdtCb) : UdtCb :=
  { c with tRexmt := 0, tPersist := 0, tKeep := 0, t2msl := 0 }

end UdtCb

/-- A send buffer of the caller; `none` is a null pointer. Its size is a `size_t`. -/
structure ConstBuffer where
  data : Option (List UChar)
  size_lt : ∀ bytes, data = some bytes → bytes.length < 2 ^ 32

def ConstBuffer.size (b : ConstBuffer) : Nat := (b.data.getD []).length

structure SendOperation where
  buf : ConstBuffer
  handler : Nat

/-- A receive buffer of the caller, by its size; a null pointer has `isNull`. -/
structure MutableBuffer where
  isNull : Bool
  size : Word
  deriving DecidableEq, Repr

structure RecvOperation where
  buf : MutableBuffer
  handler : Nat
  deriving DecidableEq, Repr

/-- What `io_service::post` is handed: the handler with its bound arguments. A
receive completion carries the bytes that were copied into its buffer. -/
inductive Completion where
  | sent (op : SendOperation) (e : UdtError) (bytes : Nat)
  | received (op : RecvOperation) (e : UdtError) (bytes : List UChar)
  | connected (handler : Nat) (e : UdtError)
  | accepted (handler : Nat) (e : UdtError)
  | shutdown (handler : Nat) (e : UdtError)

structure UdtSocket where
  /-- `next_layer_ != NULL`. -/
  nextLayer : Bool
  sendOps : List SendOperation
  sndBuf : UdtBuf
  recvOps : List RecvOperation
  rcvBuf : UdtRcvBuf
  connectHandler : Option Nat
  acceptHandler : Option Nat
  shutdownHandler : Option Nat
  pendingData : Word
  /-- `so_options_ & UDT_KEEPALIVE`. -/
  keepalive : Bool
  /-- Waits on `delay_copy_timer_` whose handler has not run yet. -/
  delayWaits : Nat
  /-- `rcv_pkt_`: the buffer the pending receive fills. -/
  rcvPkt : Option Nat
  /-- The allocator's next buffer. -/
  nextBuffer : Nat

namespace UdtSocket

def init (sndSeq rcvSeq : Word) : UdtSocket where
  nextLayer := true
  sendOps := []
  sndBuf := UdtBuf.init sndSeq
  recvOps := []
  rcvBuf := UdtRcvBuf.init rcvSeq
  connectHandler := none
  acceptHandler := none
  shutdownHandler := none
  pendingData := 0
  keepalive := false
  delayWaits := 0
  rcvPkt := none
  nextBuffer := 1

/-- `total_buffer_size()`. -/
def totalBufferSize (k : UdtSocket) : Word := k.pendingData + k.sndBuf.cc

end UdtSocket

/-- What the program reads but does not compute: successive `GetTickCount`
results, and what `rcv_win` in `output` holds when its initializer is jumped over. -/
structure Env where
  tickCount : Nat → Word
  staleRcvWin : Nat → Word

/-- A clock that stands still over memory that is all zero. -/
def Env.zero : Env := ⟨fun _ => 0, fun _ => 0⟩

/-- The machine state at one moment. -/
structure Conn where
  cb : UdtCb
  sk : UdtSocket

/-- A segment `output` handed to `udp_output`: the state in which its packet was
chosen, what `rcv_win` held there before any assignment, and the datagram. -/
structure Transmission where
  before : Conn
  staleRcvWin : Word
  dgram : Datagram

/-- One call of `output` that was not refused in CLOSED. -/
structure OutputCall where
  before : Conn
  sent : List Transmission
  after : Conn

/-- One endpoint. The fields from `wire` on are history: no function reads them. -/
structure Endpoint extends Conn where
  env : Env
  wire : List Datagram
  posted : List Completion
  sent : List Transmission
  calls : List OutputCall
  /-- The SYNs with which `handle_syn` set the receive sequence, by their number. -/
  synAccepted : List Word
  /-- `on_connected` has run. -/
  connected : Bool
  /-- `handle_fin` has run. -/
  finHandled : Bool
  /-- `m_timers[TCPT_REXMT]` at each call of `enter_persist`, which asserts that it is zero. -/
  persistEntered : List Half
  /-- The index of each read of `s_tcp_backoff`. -/
  backoffRead : List Half
  /-- `m_retrans_data` and the packet at each call of `drop_snd_pkt`. -/
  dropped : List (Word × UdtPacket)
  /-- The same at each call of `validate_first_pkt` that finds a packet. -/
  validated : List (Word × UdtPacket)
  /-- What had been posted whenever `on_disconnected` returned. -/
  disconnects : List (List Completion)
  /-- The buffer of each call of `async_receive_from`. -/
  receives : List Nat

namespace Endpoint

/-- A freshly created socket. The three words are uninitialized memory. -/
def init (fack sndSeq rcvSeq : Word) (env : Env) : Endpoint where
  cb := UdtCb.init fack
  sk := UdtSocket.init sndSeq rcvSeq
  env := env
  wire := []
  posted := []
  sent := []
  calls := []
  synAccepted := []
  connected := false
  finHandled := false
  persistEntered := []
  backoffRead := []
  dropped := []
  validated := []
  disconnects := []
  receives := []

def post (s : Endpoint) (c : Completion) : Endpoint := { s with posted := s.posted ++ [c] }

/-- `GetTickCount()`. -/
def getTickCount (s : Endpoint) : Word × Endpoint :=
  (s.env.tickCount 0, { s with env.tickCount := fun n => s.env.tickCount (n + 1) })

/-- The value of `rcv_win` where control jumped past its initializer. -/
def staleRcvWin (s : Endpoint) : Word × Endpoint :=
  (s.env.staleRcvWin 0, { s with env.staleRcvWin := fun n => s.env.staleRcvWin (n + 1) })

/-- `udp_output`: header, options and payload as one datagram to the peer. -/
def udpOutput (s : Endpoint) (d : Datagram) : Endpoint := { s with wire := s.wire ++ [d] }

end Endpoint

end UdtBoost
