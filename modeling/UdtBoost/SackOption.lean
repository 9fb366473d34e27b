import UdtBoost.Defs

/-! `udt_option.h` and `udt_option.cpp`: the packed options after the header. -/
namespace UdtBoost

namespace UdtOption

def TCPOPT_EOL : UChar := 0
def TCPOPT_NOP : UChar := 1
def TCPOPT_SACK : UChar := 5
def TCPOPT_CWND : UChar := 6

/-- `sizeof(udt_option)`. -/
def sizeofOption : Nat := 2
/-- `sizeof(udt_option_cwnd)`. -/
def sizeofCwnd : Nat := 6
/-- `sizeof(udt_option_sack::pair_seq_t)`. -/
def sizeofPair : Nat := 8
def MAX_PAIR_SEQS : Nat := 3

end UdtOption

open UdtOption

abbrev PairSeq := Word × Word

structure UdtOptionSack where
  kind : UChar
  len : UChar
  pairSeqs : List PairSeq

namespace UdtOptionSack

/-- The backward walk of `compose` below the highest packet: `prev_seq` and
`prev_end_seq` bound the run being collected, `i` blocks are written already. -/
def composeLoop : List UdtPacket → Nat → Nat → Word → Word → List PairSeq × Nat
  | [], remainLen, i, prevSeq, prevEndSeq =>
      if sizeofPair ≤ remainLen ∧ i < MAX_PAIR_SEQS then
        ([(prevSeq, prevEndSeq)], remainLen - sizeofPair)
      else ([], remainLen)
  | p :: rest, remainLen, i, prevSeq, prevEndSeq =>
      if sizeofPair ≤ remainLen ∧ i < MAX_PAIR_SEQS then
        if prevSeq ≠ p.endSeq then
          let (pairs, left) := composeLoop rest (remainLen - sizeofPair) (i + 1) p.hdr.seq p.endSeq
          ((prevSeq, prevEndSeq) :: pairs, left)
        else composeLoop rest remainLen i p.hdr.seq prevEndSeq
      else ([], remainLen)

/-- `compose` over the queue read from its end; the second component is the
option space left. Nothing is written when it equals `remainLen`. -/
def compose (rpkts : List UdtPacket) (remainLen : Nat) : Option UdtOptionSack × Nat :=
  match rpkts with
  | [] => (none, remainLen)
  | p :: rest =>
      if remainLen < sizeofOption + sizeofPair then (none, remainLen)
      else
        let (pairs, left) := composeLoop rest (remainLen - sizeofOption) 0 p.hdr.seq p.endSeq
        (some ⟨TCPOPT_SACK, BitVec.ofNat 8 (sizeofOption + sizeofPair * pairs.length), pairs⟩, left)

def hton (o : UdtOptionSack) : UdtOptionSack :=
  { o with pairSeqs := o.pairSeqs.map fun pr => (htonl pr.1, htonl pr.2) }

/-- The packed option in memory. -/
def bytes (o : UdtOptionSack) : List UChar :=
  [o.kind, o.len] ++ o.pairSeqs.flatMap fun pr => le32 pr.1 ++ le32 pr.2

/-- `size()` of an option whose `len` byte is `len`: an unsigned difference. -/
def size (len : UChar) : Nat := ((len.setWidth 32 - 2 : Word) / 8).toNat

/-- `ntoh()` in place, for the option at `ptr`. -/
def ntoh (mem : List UChar) (ptr : Nat) : Nat → List UChar
  | 0 => mem
  | n + 1 =>
      let mem := ntoh mem ptr n
      let first := ptr + sizeofOption + sizeofPair * n
      store32 (store32 mem first (ntohl (load32 mem first))) (first + 4)
        (ntohl (load32 mem (first + 4)))

/-- `pair_seqs[i]` of the option at `ptr`. -/
def pairSeq (mem : List UChar) (ptr i : Nat) : PairSeq :=
  (load32 mem (ptr + sizeofOption + sizeofPair * i), load32 mem (ptr + sizeofOption + sizeofPair * i + 4))

end UdtOptionSack

/-- A cwnd option with the window in network order. -/
def cwndBytes (cwnd : Word) : List UChar :=
  [TCPOPT_CWND, BitVec.ofNat 8 sizeofCwnd] ++ le32 (htonl cwnd)

end UdtBoost
