import UdtBoost.ChkNat

/-! The reply handlers of `udp_chknat` and `udp_pub_addr` on every datagram their buffer can take:
when they stay inside their memory, and that their string operations never leave a string. -/
namespace UdtBoost

namespace Reply

open PubAddr (ascii after)

variable {Ep : Type} {buf : RcvBuf} {d : Received} {str : List UChar}

theorem receive_toList (buf : RcvBuf) (d : Received) :
    (receive buf d).toList = d.val ++ buf.toList.drop d.val.length := by
  have short := d.property
  apply List.ext_getElem
  · simp
    omega
  · intro i left right
    rw [Vector.getElem_toList]
    simp only [receive, Vector.getElem_ofFn, List.getD_eq_getElem?_getD]
    by_cases inside : i < d.val.length
    · rw [List.getElem?_eq_getElem inside, List.getElem_append_left inside, Option.getD_some]
    · rw [List.getElem?_eq_none (by omega), List.getElem_append_right (by omega), Option.getD_none]
      have same : d.val.length + (i - d.val.length) = i := by omega
      simp only [List.getElem_drop, Vector.getElem_toList, same]
      rfl

/-- A datagram that leaves room is read back as a text up to its first zero; what the buffer held
before does not matter. -/
theorem text_received (buf : RcvBuf) (room : d.val.length < DFT_RCV_BUF_SIZE) :
    ∃ filled, terminate (receive buf d) d.val.length = .ok filled ∧
      text filled = .ok (d.val.takeWhile (· ≠ 0)) := by
  refine ⟨_, dif_pos room, ?_⟩
  have content : ((receive buf d).set d.val.length 0 room).toList =
      d.val ++ 0 :: buf.toList.drop (d.val.length + 1) := by
    rw [Vector.toList_set, receive_toList, List.set_append_right _ _ (Nat.le_refl _), Nat.sub_self]
    congr 1
    rw [List.drop_eq_getElem_cons (by simpa using room)]
    rfl
  unfold text
  rw [content, if_pos (by simp), List.takeWhile_append]
  split_ifs with whole
  · rw [(List.takeWhile_prefix _).eq_of_length whole]
    simp
  · rfl

theorem terminate_full (buf : RcvBuf) (full : ¬ d.val.length < DFT_RCV_BUF_SIZE) :
    terminate buf d.val.length = .error (.terminator d.val.length) := dif_neg full

/-- With its first colon a text has a last one, not before it. -/
theorem rfind_of_findIdx? {first : Nat} (found : str.findIdx? (· = ascii ':') = some first) :
    ∃ last, rfind ':' str = some last ∧ first ≤ last ∧ last < str.length := by
  obtain ⟨short, colon, -⟩ := List.findIdx?_eq_some_iff_getElem.mp found
  have member : str[first] ∈ str.reverse := by simp
  have some : (str.reverse.findIdx? (· = ascii ':')).isSome := by
    rw [List.findIdx?_isSome, List.any_eq_true]
    exact ⟨_, member, colon⟩
  obtain ⟨back, found'⟩ := Option.isSome_iff_exists.mp some
  obtain ⟨shortBack, -, before⟩ := List.findIdx?_eq_some_iff_getElem.mp found'
  rw [List.length_reverse] at shortBack
  refine ⟨str.length - 1 - back, by unfold rfind; rw [found']; rfl, ?_, by omega⟩
  by_contra later
  have := before (str.length - 1 - first) (by omega)
  rw [List.getElem_reverse] at this
  have same : str.length - 1 - (str.length - 1 - first) = first := by omega
  simp only [same] at this
  contradiction

theorem foldl_digits (digits : List UChar) (n : Int) :
    digits.foldl (fun n c => 10 * n + (c.setWidth 32 - 48)) (BitVec.ofInt 32 n) =
      BitVec.ofInt 32 (digits.foldl (fun n c => 10 * n + ((c.toNat : Int) - 48)) n) := by
  induction digits generalizing n with
  | nil => rfl
  | cons c rest ih =>
    have next : 10 * BitVec.ofInt 32 n + (c.setWidth 32 - 48) =
        BitVec.ofInt 32 (10 * n + ((c.toNat : Int) - 48)) := by
      have digit : c.setWidth 32 = BitVec.ofInt 32 c.toNat := by
        rw [BitVec.ofInt_natCast]
        exact BitVec.eq_of_toNat_eq (by simp)
      rw [BitVec.ofInt_add, BitVec.ofInt_mul, Int.sub_eq_add_neg, BitVec.ofInt_add, digit,
        BitVec.sub_eq_add_neg]
      rfl
    rw [List.foldl_cons, List.foldl_cons, next]
    exact ih _

/-- The wrapping `atoi` of `PubAddr` is one choice for the numbers beyond an `int`. -/
theorem atoi_wraps (str : List UChar) : atoi (BitVec.ofInt 32) str = PubAddr.atoi str := by
  have digits (str : List UChar) : BitVec.ofInt 32 ((str.takeWhile PubAddr.isDigit).foldl
      (fun n c => 10 * n + ((c.toNat : Int) - 48)) 0) = (str.takeWhile PubAddr.isDigit).foldl
      (fun n c => 10 * n + (c.setWidth 32 - 48)) 0 := (foldl_digits _ 0).symm
  have same : atoi (BitVec.ofInt 32) str = BitVec.ofInt 32 (number str) := by
    unfold atoi
    exact ite_self _
  rw [same]
  unfold number PubAddr.atoi
  cases str.dropWhile PubAddr.isSpace with
  | nil => rfl
  | cons c rest =>
    dsimp only
    split_ifs
    · rw [BitVec.ofInt_neg, digits]
    · rw [digits]
    · rw [digits]

/-- Where the address starts: behind the first colon and its blanks. -/
def addressStart (str : List UChar) (first : Nat) : Nat :=
  first + 1 + ((str.drop (first + 1)).takeWhile (· = ascii ' ')).length

theorem addressStart_le {first : Nat} (short : first < str.length) :
    addressStart str first ≤ str.length := by
  have blanks := (List.takeWhile_prefix (p := (· = ascii ' ')) (l := str.drop (first + 1))).length_le
  rw [List.length_drop] at blanks
  unfold addressStart
  omega

theorem parseEndpoint_found (endpoint : List UChar → Half → Ep) (atoi : List UChar → Word)
    {first last : Nat} (colon : str.findIdx? (· = ascii ':') = some first)
    (back : rfind ':' str = some last) :
    parseEndpoint endpoint atoi str = .ok (some (endpoint
      ((str.drop (addressStart str first)).take
        (BitVec.ofNat 32 last - BitVec.ofNat 32 (addressStart str first)).toNat)
      ((atoi (str.drop (last + 1))).setWidth 16))) := by
  obtain ⟨short, -, -⟩ := List.findIdx?_eq_some_iff_getElem.mp colon
  obtain ⟨last', back', -, inside⟩ := rfind_of_findIdx? colon
  obtain rfl := Option.some.inj (back'.symm.trans back)
  have start := addressStart_le short
  unfold addressStart at start
  have first : first + 1 ≤ str.length := short
  have behind : last' + 1 ≤ str.length := inside
  unfold parseEndpoint suffixFrom substr addressStart
  simp only [colon, back, first, behind, if_true, bind, Except.bind, pure, Except.pure]
  rw [if_pos start]

/-- No text makes `parse_endpoint` leave the string or throw. -/
theorem parseEndpoint_ok (endpoint : List UChar → Half → Ep) (atoi : List UChar → Word)
    (str : List UChar) : ∃ found, parseEndpoint endpoint atoi str = .ok found ∧
      (found ≠ none ↔ ascii ':' ∈ str) := by
  cases colon : str.findIdx? (· = ascii ':') with
  | none =>
    refine ⟨none, by unfold parseEndpoint; rw [colon], ⟨fun absent => absurd rfl absent, ?_⟩⟩
    intro member
    simpa using List.findIdx?_eq_none_iff.mp colon _ member
  | some first =>
    obtain ⟨short, here, -⟩ := List.findIdx?_eq_some_iff_getElem.mp colon
    obtain ⟨last, back, -, inside⟩ := rfind_of_findIdx? colon
    have member : ascii ':' ∈ str := (of_decide_eq_true here) ▸ List.getElem_mem short
    exact ⟨_, parseEndpoint_found endpoint atoi colon back, fun _ => member,
      fun _ => Option.some_ne_none _⟩

end Reply

namespace ChkNat

open PubAddr (ascii after)
open Reply

variable {Ep : Type} [DecidableEq Ep] {s : ChkNat Ep} {p : PubAddr Ep}

/-- A text is a whole reply: a number behind its first `=` and an endpoint behind its first `|`. -/
def Whole (text cp str : List UChar) : Prop :=
  after '=' text = some cp ∧ after '|' text = some str ∧ ascii ':' ∈ str

omit [DecidableEq Ep] in
theorem record_ok {idx : Word} {ep : Ep} : (∃ t, s.record idx ep = .ok t) ↔ idx.toNat < 4 := by
  unfold record
  split_ifs with inside
  · exact ⟨fun _ => inside, fun _ => ⟨_, rfl⟩⟩
  · refine ⟨fun ⟨t, failed⟩ => ?_, fun below => absurd below inside⟩
    cases failed

/-- The comparisons let every index pass that is not negative. -/
theorem guard_iff (idx : Word) : (0 ≤ idx.toInt ∨ idx.toNat < 4) ↔ 0 ≤ idx.toInt := by
  rw [BitVec.toInt_eq_toNat_cond]
  have := idx.isLt
  split_ifs <;> omega

theorem toNat_lt_iff {idx : Word} (passes : 0 ≤ idx.toInt) : idx.toNat < 4 ↔ idx.toInt < 4 := by
  rw [BitVec.toInt_eq_toNat_cond] at *
  have := idx.isLt
  split_ifs at * <;> omega

theorem handleReply_ok {text : List UChar} : (∃ t, s.handleReply text = .ok t) ↔
    ∀ cp str, Whole text cp str → (Reply.atoi s.env.overflow cp).toInt < 4 := by
  unfold handleReply Whole
  cases equals : after '=' text with
  | none => simp
  | some cp =>
    dsimp only
    by_cases passes : 0 ≤ (Reply.atoi s.env.overflow cp).toInt
    · rw [if_pos ((guard_iff _).mpr passes)]
      cases bar : after '|' text with
      | none => simp
      | some str =>
        obtain ⟨found, parsed, colon⟩ :=
          parseEndpoint_ok s.env.endpoint (Reply.atoi s.env.overflow) str
        simp only [parsed, bind, Except.bind]
        cases found with
        | none =>
          have missing : ascii ':' ∉ str := fun member => colon.mpr member rfl
          refine ⟨fun _ cp' str' ⟨_, same, member⟩ => ?_, fun _ => ⟨_, rfl⟩⟩
          obtain rfl := Option.some.inj same
          exact absurd member missing
        | some ep =>
          have member : ascii ':' ∈ str := colon.mp (Option.some_ne_none ep)
          have inside : (∃ t, s.record (Reply.atoi s.env.overflow cp) ep = .ok t) ↔ _ := record_ok
          rw [toNat_lt_iff passes] at inside
          constructor
          · rintro ⟨t, done⟩ cp' str' ⟨same, -, -⟩
            obtain rfl := Option.some.inj same
            apply inside.mp
            cases recorded : s.record (Reply.atoi s.env.overflow cp) ep with
            | ok t => exact ⟨t, rfl⟩
            | error fault => simp [recorded] at done
          · intro small
            obtain ⟨t, recorded⟩ := inside.mpr (small cp str ⟨rfl, rfl, member⟩)
            dsimp only
            rw [recorded]
            exact ⟨_, rfl⟩
    · rw [if_neg (mt (guard_iff _).mp passes)]
      refine ⟨fun _ cp' str' ⟨same, _⟩ => ?_, fun _ => ⟨_, rfl⟩⟩
      obtain rfl := Option.some.inj same
      omega

/-- An endpoint is recorded, if at all, for one of the four requests. -/
def Recorded (s t : ChkNat Ep) : Prop :=
  t.natInfo.eps = s.natInfo.eps ∧ t.respBitmap = s.respBitmap ∨
    ∃ (idx : Fin 4) (ep : Ep), t.natInfo.eps = s.natInfo.eps.set idx ep ∧
      t.respBitmap = s.respBitmap.set idx true

omit [DecidableEq Ep] in
theorem record_recorded {t : ChkNat Ep} {idx : Word} {ep : Ep} (done : s.record idx ep = .ok t) :
    s.Recorded t := by
  unfold record at done
  split_ifs at done with inside
  obtain rfl := Except.ok.inj done
  exact .inr ⟨⟨idx.toNat, inside⟩, ep, rfl, rfl⟩

theorem handleReply_recorded {t : ChkNat Ep} {text : List UChar}
    (done : s.handleReply text = .ok t) : s.Recorded t := by
  unfold handleReply at done
  cases equals : after '=' text with
  | none =>
    rw [equals] at done
    obtain rfl := Except.ok.inj done
    exact .inl ⟨rfl, rfl⟩
  | some cp =>
    rw [equals] at done
    dsimp only at done
    split_ifs at done with passes
    · cases bar : after '|' text with
      | none =>
        rw [bar] at done
        obtain rfl := Except.ok.inj done
        exact .inl ⟨rfl, rfl⟩
      | some str =>
        obtain ⟨found, parsed, -⟩ :=
          parseEndpoint_ok s.env.endpoint (Reply.atoi s.env.overflow) str
        simp only [bar, parsed, bind, Except.bind] at done
        cases found with
        | none =>
          obtain rfl := Except.ok.inj done
          exact .inl ⟨rfl, rfl⟩
        | some ep =>
          dsimp only at done
          cases recorded : s.record (Reply.atoi s.env.overflow cp) ep with
          | error fault =>
            rw [recorded] at done
            cases done
          | ok u =>
            rw [recorded] at done
            have kept := record_recorded recorded
            dsimp only at done
            split_ifs at done
            · obtain rfl := Except.ok.inj done
              exact kept
            · obtain rfl := Except.ok.inj done
              exact kept
    · obtain rfl := Except.ok.inj done
      exact .inl ⟨rfl, rfl⟩

/-- The handler looks at the datagram. -/
def Examined (s : ChkNat Ep) (e : HpError) (remote : Ep) (d : Received) : Prop :=
  s.tracked = true ∧ e = .success ∧ d.val ≠ [] ∧ remote ∈ s.serverEps.toList

theorem handleAsyncReceive_ok (e : HpError) (remote : Ep) (d : Received) :
    (∃ t, s.handleAsyncReceive e remote d = .ok t) ↔ (s.Examined e remote d →
      d.val.length < DFT_RCV_BUF_SIZE ∧ ∀ cp str, Whole (d.val.takeWhile (· ≠ 0)) cp str →
        (Reply.atoi s.env.overflow cp).toInt < 4) := by
  unfold handleAsyncReceive Examined
  dsimp only
  by_cases gone : s.tracked = false ∨ e = .operationAborted
  · rw [if_pos gone]
    refine ⟨fun _ ⟨tracked, success, _⟩ => ?_, fun _ => ⟨_, rfl⟩⟩
    rcases gone with untracked | aborted
    · rw [untracked] at tracked
      cases tracked
    · rw [success] at aborted
      cases aborted
  rw [if_neg gone]
  by_cases arrived : e = .success ∧ 0 < d.val.length
  · rw [if_pos arrived]
    have filled : d.val ≠ [] := List.ne_nil_of_length_pos arrived.2
    have tracked : s.tracked = true := by simpa using fun untracked => gone (.inl untracked)
    by_cases server : remote ∈ s.serverEps.toList
    · rw [if_pos server]
      have examined : s.tracked = true ∧ e = .success ∧ d.val ≠ [] ∧ remote ∈ s.serverEps.toList :=
        ⟨tracked, arrived.1, filled, server⟩
      by_cases room : d.val.length < DFT_RCV_BUF_SIZE
      · obtain ⟨buf, ended, read⟩ := text_received s.rcvBuf room
        simp only [ended, read, bind, Except.bind]
        rw [handleReply_ok]
        exact ⟨fun small _ => ⟨room, small⟩, fun both => (both examined).2⟩
      · rw [terminate_full _ room]
        refine ⟨fun ⟨t, failed⟩ => ?_, fun both => absurd (both examined).1 room⟩
        cases failed
    · rw [if_neg server]
      exact ⟨fun _ ⟨_, _, _, member⟩ => absurd member server, fun _ => ⟨_, rfl⟩⟩
  · rw [if_neg arrived]
    refine ⟨fun _ ⟨_, success, filled, _⟩ => ?_, fun _ => ⟨_, rfl⟩⟩
    exact absurd ⟨success, List.length_pos_of_ne_nil filled⟩ arrived

omit [DecidableEq Ep] in
theorem recorded_of_eq {t : ChkNat Ep} (info : t.natInfo = s.natInfo)
    (bitmap : t.respBitmap = s.respBitmap) : s.Recorded t :=
  .inl ⟨congrArg NatInfo.eps info, bitmap⟩

omit [DecidableEq Ep] in
theorem asyncReceive_recorded (rcvBuf : RcvBuf) :
    s.Recorded { s with rcvBuf }.asyncReceive := recorded_of_eq rfl rfl

theorem handleAsyncReceive_recorded {t : ChkNat Ep} {e : HpError} {remote : Ep} {d : Received}
    (done : s.handleAsyncReceive e remote d = .ok t) : s.Recorded t := by
  unfold handleAsyncReceive at done
  dsimp only at done
  generalize receive s.rcvBuf d = filled at done
  by_cases gone : s.tracked = false ∨ e = .operationAborted
  · rw [if_pos gone] at done
    obtain rfl := Except.ok.inj done
    exact recorded_of_eq rfl rfl
  rw [if_neg gone] at done
  by_cases arrived : e = .success ∧ 0 < d.val.length
  · rw [if_pos arrived] at done
    by_cases server : remote ∈ s.serverEps.toList
    · rw [if_pos server] at done
      cases ended : terminate filled d.val.length with
      | error fault =>
        rw [ended] at done
        cases done
      | ok buf =>
        simp only [ended, bind, Except.bind] at done
        cases read : text buf with
        | error fault =>
          rw [read] at done
          cases done
        | ok content =>
          rw [read] at done
          exact handleReply_recorded (s := { s with rcvBuf := buf }) done
    · rw [if_neg server] at done
      obtain rfl := Except.ok.inj done
      exact asyncReceive_recorded filled
  · rw [if_neg arrived] at done
    obtain rfl := Except.ok.inj done
    exact recorded_of_eq rfl rfl

end ChkNat

namespace PubAddr

open Reply

variable {Ep : Type} [DecidableEq Ep] {s : PubAddr Ep} {str : List UChar}

omit [DecidableEq Ep] in
theorem handleReply_ok (text : List UChar) : ∃ t, s.handleReply text = .ok t := by
  unfold handleReply
  cases after '=' text with
  | none => exact ⟨_, rfl⟩
  | some cp =>
    dsimp only
    split_ifs
    · cases after '|' text with
      | none => exact ⟨_, rfl⟩
      | some str =>
        obtain ⟨found, parsed, -⟩ := parseEndpoint_ok s.env.endpoint atoi str
        simp only [parsed, bind, Except.bind]
        cases found with
        | none => exact ⟨_, rfl⟩
        | some ep => exact ⟨_, rfl⟩
    · exact ⟨_, rfl⟩

omit [DecidableEq Ep] in
theorem after_takeWhile (c : Char) (str : List UChar) :
    after c (str.takeWhile (· ≠ 0)) = after c str := by
  unfold after
  rw [List.takeWhile_takeWhile]
  simp

omit [DecidableEq Ep] in
/-- What is behind a character has no zero. -/
theorem after_whole {c : Char} {text : List UChar} (found : after c text = some str) :
    str.takeWhile (· ≠ 0) = str ∧ str.length < text.length := by
  unfold after at found
  cases rest : (text.takeWhile (· ≠ 0)).dropWhile (· ≠ ascii c) with
  | nil =>
    rw [rest] at found
    cases found
  | cons first tail =>
    rw [rest] at found
    obtain rfl := Option.some.inj found
    have suffix : first :: tail <:+ text.takeWhile (· ≠ 0) := rest ▸ List.dropWhile_suffix _
    constructor
    · rw [List.takeWhile_eq_self_iff]
      intro c member
      have kept : c ∈ text.takeWhile (· ≠ 0) := suffix.subset (List.mem_cons_of_mem _ member)
      exact List.mem_takeWhile_imp (p := fun c : UChar => decide (c ≠ 0)) kept
    · have short := suffix.length_le.trans (List.takeWhile_prefix _).length_le
      rw [List.length_cons] at short
      omega

omit [DecidableEq Ep] in
theorem parseEndpoint_eq (env : PubAddrEnv Ep) (short : str.length < 2 ^ 31) :
    Reply.parseEndpoint env.endpoint atoi str = .ok (parseEndpoint env str) := by
  cases colon : str.findIdx? (· = ascii ':') with
  | none =>
    unfold Reply.parseEndpoint parseEndpoint
    rw [colon]
  | some first =>
    obtain ⟨last, back, -, inside⟩ := rfind_of_findIdx? colon
    rw [parseEndpoint_found _ _ colon back]
    have start := addressStart_le (List.findIdx?_eq_some_iff_getElem.mp colon).1
    have behind : str.length - 1 - str.reverse.findIdx (· = ascii ':') = last := by
      unfold rfind at back
      obtain ⟨away, found, rfl⟩ := Option.map_eq_some_iff.mp back
      rw [List.findIdx_eq_getD_findIdx?, found]
      rfl
    unfold parseEndpoint
    rw [colon]
    simp only [behind]
    change _ = Except.ok (some (env.endpoint (if last < addressStart str first then
      str.drop (addressStart str first) else
      (str.drop (addressStart str first)).take (last - addressStart str first)) _))
    congr 3
    split_ifs with wraps
    · apply List.take_of_length_le
      rw [List.length_drop, BitVec.toNat_sub, BitVec.toNat_ofNat, BitVec.toNat_ofNat]
      omega
    · congr 1
      rw [BitVec.toNat_sub, BitVec.toNat_ofNat, BitVec.toNat_ofNat]
      omega

/-- The handler looks at the datagram. -/
def Examined (s : PubAddr Ep) (e : HpError) (remote : Ep) (d : Received) : Prop :=
  e = .success ∧ d.val ≠ [] ∧ s.serverEp = some remote

theorem handleInBuffer_ok (rcvBuf : RcvBuf) (e : HpError) (remote : Ep) (d : Received) :
    (∃ t, s.handleInBuffer rcvBuf e remote d = .ok t) ↔
      (s.Examined e remote d → d.val.length < DFT_RCV_BUF_SIZE) := by
  unfold handleInBuffer Examined
  dsimp only
  by_cases aborted : e = .operationAborted
  · rw [if_pos aborted]
    refine ⟨fun _ ⟨success, _⟩ => ?_, fun _ => ⟨_, rfl⟩⟩
    rw [success] at aborted
    cases aborted
  rw [if_neg aborted]
  by_cases arrived : e = .success ∧ 0 < d.val.length
  · rw [if_pos arrived]
    by_cases server : s.serverEp = some remote
    · rw [if_pos server]
      have examined : e = .success ∧ d.val ≠ [] ∧ s.serverEp = some remote :=
        ⟨arrived.1, List.ne_nil_of_length_pos arrived.2, server⟩
      by_cases room : d.val.length < DFT_RCV_BUF_SIZE
      · obtain ⟨buf, ended, read⟩ := text_received rcvBuf room
        simp only [ended, read, bind, Except.bind]
        exact ⟨fun _ _ => room, fun _ => handleReply_ok _⟩
      · rw [terminate_full _ room]
        refine ⟨fun ⟨t, failed⟩ => ?_, fun short => absurd (short examined) room⟩
        cases failed
    · rw [if_neg server]
      exact ⟨fun _ ⟨_, _, same⟩ => absurd same server, fun _ => ⟨_, rfl⟩⟩
  · rw [if_neg arrived]
    refine ⟨fun _ ⟨success, filled, _⟩ => ?_, fun _ => ⟨_, rfl⟩⟩
    exact absurd ⟨success, List.length_pos_of_ne_nil filled⟩ arrived

/-- With room for the end of the text the handler does what `handleAsyncReceive` says. -/
theorem handleInBuffer_eq (rcvBuf : RcvBuf) (e : HpError) (remote : Ep) {d : Received}
    (room : d.val.length < DFT_RCV_BUF_SIZE) :
    s.handleInBuffer rcvBuf e remote d = .ok (s.handleAsyncReceive e remote d.val) := by
  obtain ⟨buf, ended, read⟩ := text_received rcvBuf room
  unfold handleInBuffer handleAsyncReceive
  dsimp only
  by_cases aborted : e = .operationAborted
  · rw [if_pos aborted, if_pos aborted]
  rw [if_neg aborted, if_neg aborted]
  by_cases arrived : e = .success ∧ 0 < d.val.length
  · have filled : e = .success ∧ d.val ≠ [] := ⟨arrived.1, List.ne_nil_of_length_pos arrived.2⟩
    rw [if_pos arrived, if_pos filled]
    by_cases server : s.serverEp = some remote
    · rw [if_pos server, if_pos server]
      simp only [ended, read, bind, Except.bind]
      unfold handleReply reply
      rw [after_takeWhile, after_takeWhile]
      cases after '=' d.val with
      | none => rfl
      | some cp =>
        dsimp only
        split_ifs
        · cases bar : after '|' d.val with
          | none => rfl
          | some str =>
            obtain ⟨whole, shorter⟩ := after_whole bar
            have short : str.length < 2 ^ 31 := by
              unfold DFT_RCV_BUF_SIZE at room
              omega
            simp only [parseEndpoint_eq s.env short, bind, Except.bind, Option.bind, whole]
            cases parseEndpoint s.env str with
            | none => rfl
            | some ep => rfl
        · rfl
    · rw [if_neg server, if_neg server]
  · have empty : ¬ (e = .success ∧ d.val ≠ []) := fun both =>
      arrived ⟨both.1, List.length_pos_of_ne_nil both.2⟩
    rw [if_neg arrived, if_neg empty]

end PubAddr
namespace Reply

variable {Ep : Type} [DecidableEq Ep]

/-- Both handlers stay in their memory and throw nothing exactly when a datagram they look at leaves
room for its end and `udp_chknat` finds a number below 4 in a whole reply. -/
theorem handlers_safe_iff (s : ChkNat Ep) (p : PubAddr Ep) (rcvBuf : RcvBuf) (e : HpError)
    (remote : Ep) (d : Received) :
    ((∃ t, s.handleAsyncReceive e remote d = .ok t ∧ s.Recorded t) ↔
        (s.Examined e remote d → d.val.length < DFT_RCV_BUF_SIZE ∧
          ∀ cp str, ChkNat.Whole (d.val.takeWhile (· ≠ 0)) cp str →
            (atoi s.env.overflow cp).toInt < 4)) ∧
      ((∃ t, p.handleInBuffer rcvBuf e remote d = .ok t) ↔
        (p.Examined e remote d → d.val.length < DFT_RCV_BUF_SIZE)) := by
  refine ⟨?_, PubAddr.handleInBuffer_ok rcvBuf e remote d⟩
  rw [← ChkNat.handleAsyncReceive_ok]
  constructor
  · rintro ⟨t, done, -⟩
    exact ⟨t, done⟩
  · rintro ⟨t, done⟩
    exact ⟨t, done, ChkNat.handleAsyncReceive_recorded done⟩

/-- An object that waits for the servers 1 and 2. -/
def waiting : ChkNat Nat where
  env := ⟨0, fun _ _ => 0, fun _ => 0, [], fun _ => 0⟩
  tracked := true
  handler := 0
  serverEps := #v[1, 2]
  natInfo := ⟨.none, Vector.replicate 4 0⟩
  respBitmap := Vector.replicate 4 false
  rcvBuf := Vector.replicate _ 0
  lastError := .success
  resolves := []
  receives := 1
  waits := 1
  sent := []
  posted := []

def seventhReply : List UChar := "A=7|RA: 1.2.3.4:5".toList.map PubAddr.ascii

/-- The first server answers a request of index 7. -/
theorem seventh_reply_not_safe :
    ¬ ∃ t, waiting.handleAsyncReceive .success 1 ⟨seventhReply, by decide⟩ = .ok t ∧
      waiting.Recorded t := by
  rintro ⟨t, done, -⟩
  have small := (ChkNat.handleAsyncReceive_ok _ _ _).mp ⟨t, done⟩
    ⟨rfl, rfl, by decide, by decide⟩
  exact absurd (small.2 _ _ ⟨rfl, rfl, by decide +kernel⟩) (by decide +kernel)

end Reply
end UdtBoost
