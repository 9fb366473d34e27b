import UdtBoost.Defs

/-! `udt_buf.h` and `udt_buf.cpp`: the packet buffers of both directions. Sizes are
unsigned words that wrap as the source's do; `acc` is the guard of both appends. -/
namespace UdtBoost

structure UdtBuf where
  cc : Word
  hiwat : Word
  lowat : Word
  pkts : List UdtPacket
  /-- `m_seq`: the number the next byte appended by the user gets. -/
  seq : Word
  deriving DecidableEq, Repr

namespace UdtBuf

def DEFAULT_BUFFER_SIZE : Word := 32 * 1024
def DEFAULT_LOWAT : Word := 1

/-- The constructor leaves `m_seq` uninitialized: it holds any value. -/
def init (seq : Word) : UdtBuf := ⟨0, DEFAULT_BUFFER_SIZE, DEFAULT_LOWAT, [], seq⟩

def clear (b : UdtBuf) : UdtBuf := { b with pkts := [], cc := 0 }

def acc (b : UdtBuf) : Word := b.hiwat - b.cc

def aboveLowat (b : UdtBuf) : Bool := b.lowat ≤ b.cc

/-- Whether the last packet of `m_pkts` carries a FIN. -/
def fin (b : UdtBuf) : Bool :=
  match b.pkts.getLast? with
  | some p => hasFin p.hdr.flags
  | none => false

def setInitSeq (b : UdtBuf) (seq : Word) : UdtBuf := { b with seq }

def setHiwat (b : UdtBuf) (hw : Word) : UdtBuf := { b with hiwat := hw }

/-- `alloc` followed by the header and payload writes of the user append. -/
def alloc (seq : Word) (data : List UChar) : UdtPacket where
  hdr :=
    { ver := 0, flags := 0, win := 0, len := BitVec.ofNat 16 data.length
      off := BitVec.ofNat 16 UdtHdr.size, seq, ack := 0, pseq := 0 }
  mem := data
  buffer := 0

/-- The segmentation loop of `append(const char*)`, run for `fuel` rounds; one
round per byte is always enough. -/
def segment (segSize : Nat) : Nat → Word → List UChar → List UdtPacket
  | 0, _, _ => []
  | fuel + 1, seq, data =>
      if data = [] then []
      else
        alloc seq (data.take segSize) ::
          segment segSize fuel (seq + BitVec.ofNat 32 (min data.length segSize)) (data.drop segSize)

/-- `append(const char* data, size_t data_len, size_t seg_size)`; `none` is a refusal. -/
def appendData (b : UdtBuf) (data : Option (List UChar)) (segSize : Nat) : Option UdtBuf :=
  match data with
  | none => none
  | some bytes =>
      if b.acc.toNat < bytes.length ∨ bytes = [] ∨ segSize = 0 then none
      else
        some
          { b with
            cc := b.cc + BitVec.ofNat 32 bytes.length
            seq := b.seq + BitVec.ofNat 32 bytes.length
            pkts := b.pkts ++ segment segSize bytes.length b.seq bytes }

/-- `append(udt_packet*)`. -/
def append (b : UdtBuf) (p : UdtPacket) : Option UdtBuf :=
  if b.acc.toNat < p.hdr.len.toNat then none
  else some { b with cc := b.cc + p.hdr.len.setWidth 32, pkts := b.pkts ++ [p] }

/-- `drop(i)` at the iterator between `before` and `after`. -/
def drop (b : UdtBuf) (before : List UdtPacket) (p : UdtPacket) (after : List UdtPacket) : UdtBuf :=
  { b with cc := b.cc - p.hdr.len.setWidth 32, pkts := before ++ after }

/-- The loop of `copy` from a packet on: the bytes copied and the packets left. -/
def copyLoop : List UdtPacket → Word → Nat → Bool → List UChar × List UdtPacket
  | [], _, _, _ => ([], [])
  | p :: rest, seq, bufLen, eraseCopied =>
      let toCopy := min p.hdr.len.toNat bufLen
      let partly := bufLen < p.hdr.len.toNat
      let left : List UdtPacket :=
        if partly then
          [{ p with hdr :=
            { p.hdr with
              off := p.hdr.off + BitVec.ofNat 16 toCopy
              seq := p.hdr.seq + BitVec.ofNat 32 toCopy
              len := p.hdr.len - BitVec.ofNat 16 toCopy } }]
        else if eraseCopied then [] else [p]
      let seq := seq + BitVec.ofNat 32 toCopy
      if rest.head?.any (fun q => seq = q.hdr.seq) ∧ 0 < bufLen - toCopy then
        let (more, kept) := copyLoop rest seq (bufLen - toCopy) (eraseCopied && !partly)
        (p.data.take toCopy ++ more, left ++ kept)
      else (p.data.take toCopy, left ++ rest)

/-- `copy(buf, buf_len, erase_copied)` with `buf` nonnull. -/
def copy (b : UdtBuf) (bufLen : Nat) (eraseCopied : Bool) : List UChar × UdtBuf :=
  match b.pkts with
  | [] => ([], b)
  | p :: rest =>
      if bufLen = 0 then ([], b)
      else
        let (bytes, kept) := copyLoop (p :: rest) p.hdr.seq bufLen eraseCopied
        (bytes, { b with cc := b.cc - BitVec.ofNat 32 bytes.length, pkts := kept })

end UdtBuf

structure UdtRcvBuf extends UdtBuf where
  reasmPkts : List UdtPacket
  deriving DecidableEq, Repr

namespace UdtRcvBuf

def init (seq : Word) : UdtRcvBuf := ⟨UdtBuf.init seq, []⟩

def clear (b : UdtRcvBuf) : UdtRcvBuf := ⟨b.toUdtBuf.clear, []⟩

def append (b : UdtRcvBuf) (p : UdtPacket) : Option UdtRcvBuf :=
  (b.toUdtBuf.append p).map ({ b with toUdtBuf := · })

end UdtRcvBuf

end UdtBoost
