import UdtBoost.Serial

/-! `udt_defs.h` and `udt_defs.cpp`: machine words of the WIN32 target, modular
sequence comparison, the 20-byte header and a packet in memory. -/
namespace UdtBoost

abbrev UChar := BitVec 8
/-- `short` and `u_short`; signed readings go through `BitVec.toInt`. -/
abbrev Half := BitVec 16
/-- `int`, `long`, `u_long`, `size_t` and `udt_seq`, all 32 bits wide on WIN32. -/
abbrev Word := BitVec 32

def seqLt (lop rop : Word) : Prop := Serial.Lt lop rop
def seqLe (lop rop : Word) : Prop := Serial.Le lop rop
def seqGt (lop rop : Word) : Prop := ¬ Serial.Le lop rop
def seqGe (lop rop : Word) : Prop := ¬ Serial.Lt lop rop

instance (a b : Word) : Decidable (seqLt a b) := inferInstanceAs (Decidable (Serial.Lt _ _))
instance (a b : Word) : Decidable (seqLe a b) := inferInstanceAs (Decidable (Serial.Le _ _))
instance (a b : Word) : Decidable (seqGt a b) := inferInstanceAs (Decidable (¬ Serial.Le _ _))
instance (a b : Word) : Decidable (seqGe a b) := inferInstanceAs (Decidable (¬ Serial.Lt _ _))

theorem seqLt_iff {a b : Word} : seqLt a b ↔ 2147483648 ≤ (a - b).toNat := by
  rw [seqLt, Serial.lt_iff]
  omega

theorem seqLe_iff {a b : Word} :
    seqLe a b ↔ (a - b).toNat = 0 ∨ 2147483648 ≤ (a - b).toNat := by
  rw [seqLe, Serial.le_iff]
  omega

theorem seqGt_iff {a b : Word} :
    seqGt a b ↔ 0 < (a - b).toNat ∧ (a - b).toNat < 2147483648 := by
  rw [seqGt, Serial.not_le_iff]
  omega

theorem seqGe_iff {a b : Word} : seqGe a b ↔ (a - b).toNat < 2147483648 := by
  rw [seqGe, Serial.not_lt_iff]
  omega

theorem seqLt_irrefl (a : Word) : ¬ seqLt a a := by
  rw [seqLt_iff, BitVec.sub_self]
  simp

/-- Half a circle apart each of two numbers is below the other, but neither is above. -/
theorem seqLt_of_seqGt {a b : Word} (above : seqGt b a) : seqLt a b := by
  rw [seqGt_iff] at above
  rw [seqLt_iff]
  bv_omega

theorem not_seqLt_of_seqGt {a b : Word} (above : seqGt b a) : ¬ seqLt b a := by
  rw [seqGt_iff] at above
  rw [seqLt_iff]
  omega

/-- Memory order of the little-endian target. -/
def le16 (x : Half) : List UChar := [x.setWidth 8, (x >>> 8).setWidth 8]

def le32 (x : Word) : List UChar :=
  [x.setWidth 8, (x >>> 8).setWidth 8, (x >>> 16).setWidth 8, (x >>> 24).setWidth 8]

/-- A word read from memory; bytes outside the buffer read as zero. -/
def load32 (mem : List UChar) (i : Nat) : Word :=
  (mem.getD i 0).setWidth 32 ||| (mem.getD (i + 1) 0).setWidth 32 <<< 8 |||
    (mem.getD (i + 2) 0).setWidth 32 <<< 16 ||| (mem.getD (i + 3) 0).setWidth 32 <<< 24

/-- A word written to memory; bytes outside the buffer are not stored. -/
def store32 (mem : List UChar) (i : Nat) (x : Word) : List UChar :=
  (((mem.set i (x.setWidth 8)).set (i + 1) ((x >>> 8).setWidth 8)).set (i + 2)
    ((x >>> 16).setWidth 8)).set (i + 3) ((x >>> 24).setWidth 8)

def htons (x : Half) : Half := x <<< 8 ||| x >>> 8

def htonl (x : Word) : Word :=
  x <<< 24 ||| (x &&& 0xff00#32) <<< 8 ||| (x >>> 8 &&& 0xff00#32) ||| x >>> 24

/-- Network to host order undoes host to network order by the same byte swap. -/
def ntohs (x : Half) : Half := htons x

def ntohl (x : Word) : Word := htonl x

@[simp] theorem ntohs_htons (x : Half) : ntohs (htons x) = x := by
  apply BitVec.eq_of_getLsbD_eq
  intro i hi
  simp only [ntohs, htons, BitVec.getLsbD_or, BitVec.getLsbD_shiftLeft,
    BitVec.getLsbD_ushiftRight]
  interval_cases i <;> simp

@[simp] theorem ntohl_htonl (x : Word) : ntohl (htonl x) = x := by
  apply BitVec.eq_of_getLsbD_eq
  intro i hi
  simp only [ntohl, htonl, BitVec.getLsbD_or, BitVec.getLsbD_shiftLeft,
    BitVec.getLsbD_ushiftRight, BitVec.getLsbD_and]
  interval_cases i <;> simp

structure UdtHdr where
  ver : UChar
  flags : UChar
  win : Half
  len : Half
  off : Half
  seq : Word
  ack : Word
  pseq : Word
  deriving DecidableEq, Repr

namespace UdtHdr

def TH_FIN : UChar := 0x01
def TH_SYN : UChar := 0x02
def TH_RST : UChar := 0x04
def TH_ACK : UChar := 0x10
def TH_RETRANS : UChar := 0x40
/-- Hole punch flag. -/
def TH_HP : UChar := 0x80

/-- `sizeof(udt_hdr)`. -/
def size : Nat := 20
def MAX_HEADER_SIZE : Nat := 20 + 40
def MAX_ALL_HEADERS_SIZE : Nat := 20 + 8 + MAX_HEADER_SIZE

def hton (h : UdtHdr) : UdtHdr :=
  { h with
    win := htons h.win, len := htons h.len, off := htons h.off
    seq := htonl h.seq, ack := htonl h.ack, pseq := htonl h.pseq }

def ntoh (h : UdtHdr) : UdtHdr :=
  { h with
    win := ntohs h.win, len := ntohs h.len, off := ntohs h.off
    seq := ntohl h.seq, ack := ntohl h.ack, pseq := ntohl h.pseq }

@[simp] theorem ntoh_hton (h : UdtHdr) : h.hton.ntoh = h := by
  simp [hton, ntoh]

/-- The header as it lies in memory, in declaration order. -/
def bytes (h : UdtHdr) : List UChar :=
  [h.ver, h.flags] ++ le16 h.win ++ le16 h.len ++ le16 h.off ++
    le32 h.seq ++ le32 h.ack ++ le32 h.pseq

theorem bytes_length (h : UdtHdr) : h.bytes.length = size := rfl

end UdtHdr

def hasFlag (flags mask : UChar) : Bool := flags &&& mask != 0

theorem hasFlag_or (flags mask mask' : UChar) :
    hasFlag flags (mask ||| mask') = (hasFlag flags mask || hasFlag flags mask') := by
  rw [Bool.eq_iff_iff, Bool.or_eq_true]
  simp only [hasFlag, bne_iff_ne, BitVec.and_or_distrib_left, ne_eq, BitVec.ofNat_eq_ofNat,
    BitVec.or_eq_zero_iff]
  tauto

def hasSyn (flags : UChar) : Bool := hasFlag flags UdtHdr.TH_SYN
def hasFin (flags : UChar) : Bool := hasFlag flags UdtHdr.TH_FIN
def hasAck (flags : UChar) : Bool := hasFlag flags UdtHdr.TH_ACK
def hasRst (flags : UChar) : Bool := hasFlag flags UdtHdr.TH_RST
def hasRexmt (flags : UChar) : Bool := hasFlag flags UdtHdr.TH_RETRANS
def hasHp (flags : UChar) : Bool := hasFlag flags UdtHdr.TH_HP

/-- A packet buffer. `mem` is what follows the header in the allocation, and
`buffer` tells one receive buffer from another, as its address does. -/
structure UdtPacket where
  hdr : UdtHdr
  mem : List UChar
  buffer : Nat
  deriving DecidableEq, Repr

namespace UdtPacket

/-- Memory from the start of the packet on. -/
def image (p : UdtPacket) : List UChar := p.hdr.bytes ++ p.mem

/-- The `uh_len` bytes at `data_ptr()`. -/
def data (p : UdtPacket) : List UChar := (p.image.drop p.hdr.off.toNat).take p.hdr.len.toNat

/-- Sequence number right after the packet's payload. -/
def endSeq (p : UdtPacket) : Word := p.hdr.seq + p.hdr.len.setWidth 32

theorem data_of_le {p : UdtPacket} (h : UdtHdr.size ≤ p.hdr.off.toNat) :
    p.data = (p.mem.drop (p.hdr.off.toNat - UdtHdr.size)).take p.hdr.len.toNat := by
  have e : p.hdr.bytes.length = UdtHdr.size := UdtHdr.bytes_length _
  rw [data, image, List.drop_append, List.drop_of_length_le (by omega), e, List.nil_append]

theorem data_length {p : UdtPacket}
    (h : p.hdr.len.toNat + p.hdr.off.toNat ≤ UdtHdr.size + p.mem.length) :
    p.data.length = p.hdr.len.toNat := by
  have e : p.hdr.bytes.length = UdtHdr.size := UdtHdr.bytes_length _
  simp only [data, image, List.length_take, List.length_drop, List.length_append, e]
  omega

end UdtPacket

/-- What one `send_to` puts on the wire: a header in network order and the
bytes after it. -/
structure Datagram where
  hdr : UdtHdr
  body : List UChar
  deriving DecidableEq, Repr

/-- `udt_error::errors`; every error but `succeed` is nonzero and so true. -/
inductive UdtError where
  | succeed | eof | invalidArgument | connectionReset | timedOut | operationAborted
  | closed | disconnected | alreadCreated | malformedPacket | notBind
  deriving DecidableEq, Repr

/-- `boost::system::error_code`: codes of the library's categories and of `udt_error_category` differ,
whatever their values. -/
inductive ErrorCode where
  | system (value : Int)
  | udt (e : UdtError)
  deriving DecidableEq, Repr

end UdtBoost
