import UdtBoost.RttTimer
import UdtBoost.Timers

/-! The round-trip estimator over the integers, beside the 16-bit one of `xmit_timer`,
`rexmt_timer_value` and `enter_persist`. The two agree as long as samples stay below a bound, and
the bound comes from a polygon that every sample maps into itself. -/
namespace UdtBoost

/-- The smoothed round-trip time in eighths of a tick, and its variance in quarters. -/
structure Estimate where
  srtt : Int
  rttvar : Int

namespace Estimate

variable {e : Estimate} {rtt : Int}

def initial : Estimate := ⟨0, 12⟩

/-- The smoothing of `xmit_timer`. -/
def sample (e : Estimate) (rtt : Int) : Estimate :=
  if e.srtt ≠ 0 then
    let delta := rtt - 1 - e.srtt / 8
    let srtt := if e.srtt + delta ≤ 0 then 1 else e.srtt + delta
    let delta := if delta < 0 then -delta else delta
    let delta := delta - e.rttvar / 4
    ⟨srtt, if e.rttvar + delta ≤ 0 then 1 else e.rttvar + delta⟩
  else ⟨rtt * 8, rtt * 2⟩

/-- An estimate that has failed too often is given up, its time counted as variance. -/
def abandon (e : Estimate) : Estimate := ⟨0, e.rttvar + e.srtt / 8⟩

def rexmtval (e : Estimate) : Int := e.srtt / 8 + e.rttvar

/-- `TCPT_RANGESET`. -/
def ranged (value tvmin tvmax : Int) : Int :=
  if value < tvmin then tvmin else if tvmax < value then tvmax else value

def rexmt (e : Estimate) (rttmin : Int) (backoff : Nat) : Int :=
  ranged (e.rexmtval * backoff) rttmin TCPTV_REXMTMAX.toInt

def persist (e : Estimate) (backoff : Nat) : Int :=
  ranged ((e.srtt / 4 + e.rttvar) / 2 * backoff) TCPTV_PERSMIN.toInt TCPTV_PERSMAX.toInt

/-- The longest sample, in ticks, after which no timer value can leave 16 bits. -/
def maxSample : Int := 145

/-- What samples of at most `maxSample` ticks lead to. The sides are found by following the sides
that matter for `rexmtval` back through `sample`, until the set is closed. -/
structure Within (e : Estimate) : Prop where
  low : 1 ≤ e.srtt
  high : e.srtt ≤ 1160
  positive : 1 ≤ e.rttvar
  flat : 16 * e.rttvar ≤ 7326
  rising : 16 * e.rttvar ≤ 6 * e.srtt + 5832
  falling : 2 * e.srtt + 16 * e.rttvar ≤ 8180
  steep : 5 * e.srtt + 16 * e.rttvar ≤ 10891
  steeper : 8 * e.srtt + 16 * e.rttvar ≤ 13932
  steepest : 9 * e.srtt + 16 * e.rttvar ≤ 15080

/-- The estimates of runs with samples of at most `maxSample` ticks. -/
def Settled (e : Estimate) : Prop := e.Within ∨ e.srtt = 0 ∧ 1 ≤ e.rttvar ∧ e.rttvar ≤ 511

theorem sample_first (fresh : e.srtt = 0) : e.sample rtt = ⟨rtt * 8, rtt * 2⟩ :=
  if_neg (not_not.mpr fresh)

theorem within_first (some : 1 ≤ rtt) (short : rtt ≤ maxSample) :
    Within ⟨rtt * 8, rtt * 2⟩ := by
  unfold maxSample at short
  constructor
  all_goals dsimp only; omega

/-- A longer sample than expected raises both estimates. -/
theorem Within.longer (within : e.Within) (short : rtt ≤ maxSample) (longer : e.srtt / 8 ≤ rtt - 1) :
    Within ⟨e.srtt + (rtt - 1 - e.srtt / 8), e.rttvar + (rtt - 1 - e.srtt / 8 - e.rttvar / 4)⟩ := by
  obtain ⟨low, high, positive, flat, rising, falling, steep, steeper, steepest⟩ := within
  unfold maxSample at short
  constructor
  all_goals dsimp only; omega

/-- A shorter one lowers the time and raises the variance. -/
theorem Within.shorter (within : e.Within) (some : 1 ≤ rtt) (shorter : rtt - 1 < e.srtt / 8) :
    Within ⟨e.srtt + (rtt - 1 - e.srtt / 8),
      e.rttvar + (-(rtt - 1 - e.srtt / 8) - e.rttvar / 4)⟩ := by
  obtain ⟨low, high, positive, flat, rising, falling, steep, steeper, steepest⟩ := within
  constructor
  all_goals dsimp only; omega

theorem Within.sample (within : e.Within) (some : 1 ≤ rtt) (short : rtt ≤ maxSample) :
    (e.sample rtt).Within := by
  have low := within.low
  have positive := within.positive
  have known : e.srtt ≠ 0 := by omega
  have time : ¬ e.srtt + (rtt - 1 - e.srtt / 8) ≤ 0 := by omega
  unfold Estimate.sample
  rw [if_pos known]
  dsimp only
  rw [if_neg time]
  by_cases shorter : rtt - 1 - e.srtt / 8 < 0
  · rw [if_pos shorter, if_neg (by omega)]
    exact within.shorter some (by omega)
  · rw [if_neg shorter, if_neg (by omega)]
    exact within.longer short (by omega)

theorem Settled.sample (settled : e.Settled) (some : 1 ≤ rtt) (short : rtt ≤ maxSample) :
    (e.sample rtt).Settled := by
  left
  rcases settled with within | ⟨fresh, _⟩
  · exact within.sample some short
  · rw [sample_first fresh]
    exact within_first some short

theorem Settled.bounds (settled : e.Settled) :
    0 ≤ e.srtt ∧ e.srtt ≤ 1160 ∧ 1 ≤ e.rttvar ∧ e.rttvar ≤ 511 := by
  rcases settled with within | ⟨fresh, some, low⟩
  · have low := within.low
    have high := within.high
    have positive := within.positive
    have flat := within.flat
    omega
  · omega

/-- With the largest backoff, 64, the value still fits a `short`. -/
theorem Settled.rexmtval (settled : e.Settled) : 1 ≤ e.rexmtval ∧ e.rexmtval ≤ 511 := by
  unfold Estimate.rexmtval
  rcases settled with within | ⟨fresh, some, low⟩
  · have low := within.low
    have positive := within.positive
    have falling := within.falling
    omega
  · omega

theorem Settled.abandon (settled : e.Settled) : e.abandon.Settled := by
  have bounds := settled.rexmtval
  unfold Estimate.rexmtval at bounds
  refine .inr ⟨rfl, ?_, ?_⟩
  all_goals unfold Estimate.abandon; dsimp only; omega

theorem settled_initial : initial.Settled := .inr ⟨rfl, by decide, by decide⟩

theorem ranged_mono {v w tvmin tvmax : Int} (ordered : tvmin ≤ tvmax) (le : v ≤ w) :
    ranged v tvmin tvmax ≤ ranged w tvmin tvmax := by
  unfold ranged
  split <;> split <;> (try split) <;> (try split) <;> omega

/-- Samples one tick longer can lead to a value that the largest backoff takes out of 16 bits. -/
example : 2 ^ 15 ≤ ((([146, 1, 1] : List Int).foldl Estimate.sample initial).rexmtval) * 64 := by
  decide

end Estimate

section Fits

variable {w : Nat} {a b : BitVec (w + 1)}

theorem bmod_fits {n : Int} (low : -2 ^ w ≤ n) (high : n < 2 ^ w) : n.bmod (2 ^ (w + 1)) = n := by
  have half : ((2 ^ (w + 1) : Nat) : Int) = 2 * 2 ^ w := by
    push_cast
    ring
  exact Int.bmod_eq_of_le (by rw [half]; omega) (by rw [half]; omega)

theorem toInt_add_fits (low : -2 ^ w ≤ a.toInt + b.toInt) (high : a.toInt + b.toInt < 2 ^ w) :
    (a + b).toInt = a.toInt + b.toInt := by
  rw [BitVec.toInt_add, bmod_fits low high]

theorem toInt_sub_fits (low : -2 ^ w ≤ a.toInt - b.toInt) (high : a.toInt - b.toInt < 2 ^ w) :
    (a - b).toInt = a.toInt - b.toInt := by
  rw [BitVec.toInt_sub, bmod_fits low high]

theorem toInt_neg_fits (low : -2 ^ w ≤ -a.toInt) (high : -a.toInt < 2 ^ w) :
    (-a).toInt = -a.toInt := by
  rw [BitVec.toInt_neg, bmod_fits low high]

theorem toInt_mul_fits (low : -2 ^ w ≤ a.toInt * b.toInt) (high : a.toInt * b.toInt < 2 ^ w) :
    (a * b).toInt = a.toInt * b.toInt := by
  rw [BitVec.toInt_mul, bmod_fits low high]

theorem toNat_of_nonneg (low : 0 ≤ a.toInt) : (a.toNat : Int) = a.toInt := by
  rw [BitVec.toInt_eq_toNat_cond] at low ⊢
  have size := a.isLt
  split at low <;> omega

theorem toInt_shiftLeft_fits {n : Nat} (low : 0 ≤ a.toInt) (high : a.toInt * 2 ^ n < 2 ^ w) :
    (a <<< n).toInt = a.toInt * 2 ^ n := by
  have shifted : ((a.toNat <<< n : Nat) : Int) = a.toInt * 2 ^ n := by
    rw [Nat.shiftLeft_eq, ← toNat_of_nonneg low]
    push_cast
    rfl
  rw [BitVec.toInt_shiftLeft, shifted]
  refine bmod_fits ?_ high
  have : 0 ≤ a.toInt * 2 ^ n := mul_nonneg low (by positivity)
  have : (0 : Int) ≤ 2 ^ w := by positivity
  omega

theorem toInt_sshiftRight_eq {n : Nat} : (a.sshiftRight n).toInt = a.toInt / 2 ^ n := by
  rw [BitVec.toInt_sshiftRight, Int.shiftRight_eq_div_pow]
  norm_cast

theorem eq_zero_iff_toInt : a = 0 ↔ a.toInt = 0 := by
  constructor
  · rintro rfl
    exact BitVec.toInt_zero
  · intro zero
    exact BitVec.eq_of_toInt_eq (zero.trans BitVec.toInt_zero.symm)

/-- Narrowing keeps a number that fits. -/
theorem toInt_setWidth_fits {v : Nat} (low : 0 ≤ a.toInt) (high : a.toInt < 2 ^ v) :
    (a.setWidth (v + 1)).toInt = a.toInt := by
  rw [BitVec.toInt_setWidth, toNat_of_nonneg low, bmod_fits _ high]
  have : (0 : Int) ≤ 2 ^ v := by positivity
  omega

theorem toInt_ofNat_fits {n : Nat} (high : (n : Int) < 2 ^ w) :
    (BitVec.ofNat (w + 1) n).toInt = n := by
  rw [BitVec.toInt_ofNat', bmod_fits _ high]
  have : (0 : Int) ≤ 2 ^ w := by positivity
  omega

end Fits

theorem ranged_toInt (value tvmin tvmax : Half) :
    (TCPT_RANGESET value tvmin tvmax).toInt =
      Estimate.ranged value.toInt tvmin.toInt tvmax.toInt := by
  unfold TCPT_RANGESET Estimate.ranged
  split
  · rfl
  · split <;> rfl

/-- The table's factors, in order. -/
theorem sTcpBackoff_mono : ∀ j k, j ≤ k → k ≤ 12 →
    sTcpBackoff.getD j 0 ≤ sTcpBackoff.getD k 0 := by
  intro j k le small
  interval_cases k <;> interval_cases j <;> decide

theorem sTcpBackoff_bounds : ∀ k ≤ 12, 1 ≤ sTcpBackoff.getD k 0 ∧ sTcpBackoff.getD k 0 ≤ 64 := by
  decide

def UdtCb.estimate (c : UdtCb) : Estimate := ⟨c.srtt.toInt, c.rttvar.toInt⟩

namespace UdtCb

variable {c : UdtCb}

/-- The code's value is the one of the integers while the product with the backoff fits. -/
structure Fits (c : UdtCb) : Prop where
  srtt : 0 ≤ c.srtt.toInt
  rttvar : 0 < c.rttvar.toInt
  shift : c.rxtshift.toNat ≤ TCP_MAXRXTSHIFT.toNat
  product : c.estimate.rexmtval * c.backoff < 2 ^ 15

theorem backoff_bounds (small : c.rxtshift.toNat ≤ TCP_MAXRXTSHIFT.toNat) :
    1 ≤ (c.backoff : Int) ∧ (c.backoff : Int) ≤ 64 := by
  obtain ⟨low, high⟩ := sTcpBackoff_bounds _ small
  change 1 ≤ c.backoff at low
  change c.backoff ≤ 64 at high
  omega

/-- The retransmission timer's value is the one of the integers. -/
theorem Fits.rexmtTimerValue (fits : c.Fits) :
    c.rexmtTimerValue.toInt = c.estimate.rexmt c.rttmin.toInt c.backoff := by
  obtain ⟨srtt, rttvar, small, product⟩ := fits
  obtain ⟨one, most⟩ := backoff_bounds small
  have eighth : (c.srtt.sshiftRight TCP_RTT_SHIFT).toInt = c.srtt.toInt / 8 := toInt_sshiftRight_eq
  have sum : c.estimate.rexmtval = c.srtt.toInt / 8 + c.rttvar.toInt := rfl
  have low : 0 < c.estimate.rexmtval := by omega
  have least : c.estimate.rexmtval ≤ c.estimate.rexmtval * c.backoff :=
    le_mul_of_one_le_right low.le one
  have factor : (BitVec.ofNat 16 c.backoff).toInt = c.backoff := toInt_ofNat_fits (by omega)
  have value : c.TCP_REXMTVAL.toInt = c.estimate.rexmtval := by
    unfold TCP_REXMTVAL
    rw [toInt_add_fits (by omega) (by omega), eighth, sum]
  unfold UdtCb.rexmtTimerValue
  rw [ranged_toInt, toInt_mul_fits (by rw [value, factor]; omega) (by rw [value, factor]; omega),
    value, factor]
  rfl

/-- With a settled estimate every entry of the table will do. -/
theorem fits_of_settled (settled : c.estimate.Settled)
    (small : c.rxtshift.toNat ≤ TCP_MAXRXTSHIFT.toNat) : c.Fits := by
  obtain ⟨low, _, positive, _⟩ := settled.bounds
  obtain ⟨_, high⟩ := settled.rexmtval
  obtain ⟨one, most⟩ := backoff_bounds small
  have bound : c.estimate.rexmtval * c.backoff ≤ 511 * 64 :=
    mul_le_mul high most (by omega) (by omega)
  exact ⟨low, positive, small, by omega⟩

end UdtCb

namespace Endpoint

variable {s : Endpoint} {rtt : Half}

/-- `xmit_timer` takes the sample of the integers. -/
theorem xmitTimer_estimate (settled : s.cb.estimate.Settled) (some : 1 ≤ rtt.toInt)
    (short : rtt.toInt ≤ 4095) :
    (s.xmitTimer rtt).cb.estimate = s.cb.estimate.sample rtt.toInt := by
  obtain ⟨low, high, positive, most⟩ := settled.bounds
  change 0 ≤ s.cb.srtt.toInt at low
  change s.cb.srtt.toInt ≤ 1160 at high
  change 1 ≤ s.cb.rttvar.toInt at positive
  change s.cb.rttvar.toInt ≤ 511 at most
  have eighth : (s.cb.srtt.sshiftRight TCP_RTT_SHIFT).toInt = s.cb.srtt.toInt / 8 :=
    toInt_sshiftRight_eq
  have quarter : (s.cb.rttvar.sshiftRight TCP_RTTVAR_SHIFT).toInt = s.cb.rttvar.toInt / 4 :=
    toInt_sshiftRight_eq
  by_cases known : s.cb.srtt ≠ 0
  case neg =>
    have fresh : s.cb.estimate.srtt = 0 := eq_zero_iff_toInt.mp (not_not.mp known)
    rw [Estimate.sample_first fresh]
    unfold xmitTimer
    dsimp only
    rw [if_neg known]
    unfold UdtCb.estimate
    dsimp only
    congr 1
    · exact toInt_shiftLeft_fits (by omega) (by norm_num [TCP_RTT_SHIFT]; omega)
    · exact toInt_shiftLeft_fits (by omega) (by norm_num [TCP_RTTVAR_SHIFT]; omega)
  case pos =>
    have moved : s.cb.estimate.srtt ≠ 0 := fun zero => known (eq_zero_iff_toInt.mpr zero)
    have one : (1 : Half).toInt = 1 := rfl
    have less : (rtt - 1).toInt = rtt.toInt - 1 := by
      rw [toInt_sub_fits (by omega) (by omega), one]
    obtain ⟨delta, step⟩ : ∃ delta, rtt - 1 - s.cb.srtt.sshiftRight TCP_RTT_SHIFT = delta :=
      ⟨_, rfl⟩
    have deltaInt : delta.toInt = rtt.toInt - 1 - s.cb.srtt.toInt / 8 := by
      rw [← step, toInt_sub_fits (by omega) (by omega), less, eighth]
    have timeInt : (s.cb.srtt + delta).toInt = s.cb.srtt.toInt + delta.toInt :=
      toInt_add_fits (by omega) (by omega)
    obtain ⟨size, absolute⟩ : ∃ size, (if delta.toInt < 0 then -delta else delta) = size :=
      ⟨_, rfl⟩
    have sizeInt : size.toInt = if delta.toInt < 0 then -delta.toInt else delta.toInt := by
      rw [← absolute]
      split
      · exact toInt_neg_fits (by omega) (by omega)
      · rfl
    have sizeBounds : 0 ≤ size.toInt ∧ size.toInt ≤ 4095 := by
      rw [sizeInt]
      split <;> omega
    have gainInt : (size - s.cb.rttvar.sshiftRight TCP_RTTVAR_SHIFT).toInt =
        size.toInt - s.cb.rttvar.toInt / 4 := by
      rw [toInt_sub_fits (by omega) (by omega), quarter]
    have varInt : (s.cb.rttvar + (size - s.cb.rttvar.sshiftRight TCP_RTTVAR_SHIFT)).toInt =
        s.cb.rttvar.toInt + (size.toInt - s.cb.rttvar.toInt / 4) := by
      rw [toInt_add_fits (by omega) (by omega), gainInt]
    unfold xmitTimer Estimate.sample
    rw [if_pos moved]
    dsimp only
    rw [if_pos known, step, absolute]
    unfold UdtCb.estimate
    dsimp only
    rw [timeInt, varInt, ← deltaInt, ← sizeInt]
    congr 1
    · split
      · rfl
      · exact timeInt
    · split
      · rfl
      · exact varInt

/-- A sample that is not longer than expected by the first branch leaves a value that fits as long as
it is not backed off; `xmit_timer` has reset the shift by then. -/
theorem xmitTimer_fits (settled : s.cb.estimate.Settled) (some : 1 ≤ rtt.toInt)
    (short : rtt.toInt ≤ 4095) : (s.xmitTimer rtt).cb.Fits := by
  have same := xmitTimer_estimate settled some short
  obtain ⟨low, high, positive, most⟩ := settled.bounds
  have shift : (s.xmitTimer rtt).cb.rxtshift = 0 := by
    obtain ⟨_, _, _, result⟩ := s.xmitTimer_eq rtt
    rw [result]
  have one : (s.xmitTimer rtt).cb.backoff = 1 := by
    unfold UdtCb.backoff
    rw [shift]
    rfl
  have srtt : (s.xmitTimer rtt).cb.srtt.toInt = (s.cb.estimate.sample rtt.toInt).srtt :=
    congrArg Estimate.srtt same
  have rttvar : (s.xmitTimer rtt).cb.rttvar.toInt = (s.cb.estimate.sample rtt.toInt).rttvar :=
    congrArg Estimate.rttvar same
  obtain ⟨nonneg, pos, sum⟩ : 0 ≤ (s.cb.estimate.sample rtt.toInt).srtt ∧
      0 < (s.cb.estimate.sample rtt.toInt).rttvar ∧
      (s.cb.estimate.sample rtt.toInt).srtt / 8 + (s.cb.estimate.sample rtt.toInt).rttvar <
        2 ^ 15 := by
    unfold Estimate.sample
    split
    · dsimp only
      split <;> split <;> split <;> omega
    · dsimp only
      omega
  refine ⟨srtt ▸ nonneg, rttvar ▸ pos, ?_, ?_⟩
  · rw [shift]
    exact Nat.zero_le _
  · rw [one, same]
    unfold Estimate.rexmtval
    omega

/-- `enter_persist` sets the timer of the integers. -/
theorem enterPersist_toInt (settled : s.cb.estimate.Settled)
    (small : s.cb.rxtshift.toNat ≤ TCP_MAXRXTSHIFT.toNat) :
    s.enterPersist.cb.tPersist.toInt = s.cb.estimate.persist s.cb.backoff := by
  obtain ⟨low, high, positive, most⟩ := settled.bounds
  change 0 ≤ s.cb.srtt.toInt at low
  change s.cb.srtt.toInt ≤ 1160 at high
  change 1 ≤ s.cb.rttvar.toInt at positive
  change s.cb.rttvar.toInt ≤ 511 at most
  obtain ⟨one, top⟩ := UdtCb.backoff_bounds small
  have quarter : ((s.cb.srtt.signExtend 32).sshiftRight 2).toInt = s.cb.srtt.toInt / 4 := by
    rw [toInt_sshiftRight_eq, BitVec.toInt_signExtend_of_le (by omega)]
    rfl
  have var : (s.cb.rttvar.signExtend 32).toInt = s.cb.rttvar.toInt :=
    BitVec.toInt_signExtend_of_le (by omega)
  have sum : ((s.cb.srtt.signExtend 32).sshiftRight 2 + s.cb.rttvar.signExtend 32).toInt =
      s.cb.srtt.toInt / 4 + s.cb.rttvar.toInt := by
    rw [toInt_add_fits (by rw [quarter, var]; omega) (by rw [quarter, var]; omega), quarter, var]
  have half : (((s.cb.srtt.signExtend 32).sshiftRight 2 +
      s.cb.rttvar.signExtend 32).sshiftRight 1).toInt =
        (s.cb.srtt.toInt / 4 + s.cb.rttvar.toInt) / 2 := by
    rw [toInt_sshiftRight_eq, sum]
    rfl
  have factor : (BitVec.ofNat 32 s.cb.backoff).toInt = s.cb.backoff := toInt_ofNat_fits (by omega)
  have least : 0 ≤ (s.cb.srtt.toInt / 4 + s.cb.rttvar.toInt) / 2 * (s.cb.backoff : Int) :=
    mul_nonneg (by omega) (by omega)
  have bound : (s.cb.srtt.toInt / 4 + s.cb.rttvar.toInt) / 2 * (s.cb.backoff : Int) ≤ 400 * 64 :=
    mul_le_mul (by omega) top (by omega) (by omega)
  have entered : s.enterPersist.cb.tPersist = TCPT_RANGESET
      ((((s.cb.srtt.signExtend 32).sshiftRight 2 + s.cb.rttvar.signExtend 32).sshiftRight 1 *
        BitVec.ofNat 32 s.cb.backoff).setWidth 16) TCPTV_PERSMIN TCPTV_PERSMAX := by
    unfold enterPersist
    dsimp only
    split <;> rfl
  generalize ((s.cb.srtt.signExtend 32).sshiftRight 2 +
    s.cb.rttvar.signExtend 32).sshiftRight 1 = t at half entered
  have product : (t * BitVec.ofNat 32 s.cb.backoff).toInt =
      (s.cb.srtt.toInt / 4 + s.cb.rttvar.toInt) / 2 * s.cb.backoff := by
    rw [toInt_mul_fits (by rw [half, factor]; omega) (by rw [half, factor]; omega), half, factor]
  rw [entered, ranged_toInt, toInt_setWidth_fits (by omega) (by omega), product]
  rfl

/-- What is asked of the timer arithmetic in a state: the estimates have the right signs, the sample
that is being counted would be smoothed as over the integers, and so would every value that either
timer can be set to before the next sample. -/
structure TimersExact (s : Endpoint) : Prop where
  shift : s.cb.rxtshift.toNat ≤ TCP_MAXRXTSHIFT.toNat
  srtt : 0 ≤ s.cb.srtt.toInt
  rttvar : 0 < s.cb.rttvar.toInt
  sample : s.cb.rtt ≠ 0 →
    (s.xmitTimer s.cb.rtt).cb.estimate = s.cb.estimate.sample s.cb.rtt.toInt ∧
      (s.xmitTimer s.cb.rtt).cb.rxtcur.toInt =
        (s.cb.estimate.sample s.cb.rtt.toInt).rexmt s.cb.rttmin.toInt 1
  rexmt : ∀ k : Half, k.toNat ≤ TCP_MAXRXTSHIFT.toNat →
    { s.cb with rxtshift := k }.rexmtTimerValue.toInt =
      s.cb.estimate.rexmt s.cb.rttmin.toInt (sTcpBackoff.getD k.toNat 0)
  persist : ∀ k : Half, k.toNat ≤ TCP_MAXRXTSHIFT.toNat →
    ({ s with cb.rxtshift := k } : Endpoint).enterPersist.cb.tPersist.toInt =
      s.cb.estimate.persist (sTcpBackoff.getD k.toNat 0)
  rising : ∀ j k : Half, j.toNat ≤ k.toNat → k.toNat ≤ TCP_MAXRXTSHIFT.toNat →
    { s.cb with rxtshift := j }.rexmtTimerValue.toInt ≤
      { s.cb with rxtshift := k }.rexmtTimerValue.toInt

theorem timersExact_of_settled (clock : s.clock.Good) (settled : s.cb.estimate.Settled)
    (counted : 0 ≤ s.cb.rtt.toInt) (short : s.cb.rtt.toInt ≤ 4095) : s.TimersExact := by
  obtain ⟨low, high, positive, most⟩ := settled.bounds
  have least : s.cb.rttmin = TCPTV_MIN := clock.least
  have value : ∀ k : Half, k.toNat ≤ TCP_MAXRXTSHIFT.toNat →
      { s.cb with rxtshift := k }.rexmtTimerValue.toInt =
        s.cb.estimate.rexmt s.cb.rttmin.toInt (sTcpBackoff.getD k.toNat 0) := by
    intro k small
    exact (UdtCb.fits_of_settled (c := { s.cb with rxtshift := k }) settled small).rexmtTimerValue
  refine ⟨clock.shift, low, positive, ?_, value, ?_, ?_⟩
  · intro on
    have some : 1 ≤ s.cb.rtt.toInt := by
      have : s.cb.rtt.toInt ≠ 0 := fun zero => on (eq_zero_iff_toInt.mpr zero)
      omega
    have same := xmitTimer_estimate settled some short
    refine ⟨same, ?_⟩
    have fits := xmitTimer_fits settled some short
    have current : (s.xmitTimer s.cb.rtt).cb.rxtcur = (s.xmitTimer s.cb.rtt).cb.rexmtTimerValue :=
      rfl
    have minimum : (s.xmitTimer s.cb.rtt).cb.rttmin = s.cb.rttmin := by
      obtain ⟨_, _, _, result⟩ := s.xmitTimer_eq s.cb.rtt
      rw [result]
    have one : (s.xmitTimer s.cb.rtt).cb.backoff = 1 := by
      obtain ⟨_, _, _, result⟩ := s.xmitTimer_eq s.cb.rtt
      rw [result]
      rfl
    rw [current, fits.rexmtTimerValue, same, minimum, one]
  · intro k small
    exact enterPersist_toInt (s := { s with cb.rxtshift := k }) settled small
  · intro j k le small
    rw [value j (le.trans small), value k small]
    refine Estimate.ranged_mono ?_ ?_
    · rw [least]
      decide
    · have factor := sTcpBackoff_mono _ _ le small
      have positive := settled.rexmtval.1
      exact mul_le_mul_of_nonneg_left (by exact_mod_cast factor) (by omega)

end Endpoint

namespace RttTimer

def estimate (r : RttTimer) : Estimate := ⟨r.srtt.toInt, r.rttvar.toInt⟩

/-- Along a run the estimate is settled and at most `most` ticks are counted. -/
structure Paced (most : Int) (r : RttTimer) : Prop where
  settled : r.estimate.Settled
  counted : 0 ≤ r.rtt.toInt
  short : r.rtt.toInt ≤ most

variable {r r' : RttTimer} {a : Timing} {most : Int}

theorem Change.paced (change : Change r a r') (paced : r.Paced most) (one : 1 ≤ most)
    (sampled : a = .sample → most ≤ Estimate.maxSample) (ticked : a ≠ .tick) : r'.Paced most := by
  have zero : (0 : Half).toInt ≤ most := le_trans (by decide) one
  have unit : 0 ≤ (1 : Half).toInt := by decide
  cases change with
  | begin => exact ⟨paced.settled, unit, one⟩
  | stop => exact ⟨paced.settled, le_rfl, zero⟩
  | giveUp =>
      obtain ⟨low, high⟩ := paced.settled.rexmtval
      change 1 ≤ r.srtt.toInt / 8 + r.rttvar.toInt at low
      change r.srtt.toInt / 8 + r.rttvar.toInt ≤ 511 at high
      have eighth : (r.srtt.sshiftRight TCP_RTT_SHIFT).toInt = r.srtt.toInt / 8 :=
        toInt_sshiftRight_eq
      have sum : (r.rttvar + r.srtt.sshiftRight TCP_RTT_SHIFT).toInt =
          r.rttvar.toInt + r.srtt.toInt / 8 := by
        rw [toInt_add_fits (by omega) (by omega), eighth]
      refine ⟨?_, paced.counted, paced.short⟩
      have given := paced.settled.abandon
      unfold Estimate.abandon at given
      unfold estimate
      dsimp only at given ⊢
      rw [sum]
      exact given
  | @sample s on =>
      have some : 1 ≤ s.cb.rtt.toInt := by
        have counted := paced.counted
        change 0 ≤ s.cb.rtt.toInt at counted
        have : s.cb.rtt.toInt ≠ 0 := fun zero => on (eq_zero_iff_toInt.mpr zero)
        omega
      have limit : s.cb.rtt.toInt ≤ Estimate.maxSample := paced.short.trans (sampled rfl)
      have same := Endpoint.xmitTimer_estimate paced.settled some
        (limit.trans (by unfold Estimate.maxSample; omega))
      have off : (s.xmitTimer s.cb.rtt).rttTimer.rtt = 0 := s.xmitTimer_rtt s.cb.rtt
      refine ⟨?_, ?_, ?_⟩
      · change (s.xmitTimer s.cb.rtt).cb.estimate.Settled
        rw [same]
        exact paced.settled.sample some limit
      · rw [off]
        exact le_rfl
      · rw [off]
        exact zero
  | tick => exact absurd rfl ticked

theorem Path.paced {C : Timing → Prop} (path : Path C r r') (paced : r.Paced most)
    (one : 1 ≤ most) (sampled : C .sample → most ≤ Estimate.maxSample) (ticked : ¬ C .tick) :
    r'.Paced most := by
  refine path.invariant (I := fun r => r.Paced most) paced ?_
  intro r a r' paced allowed change
  refine change.paced paced one ?_ ?_
  · rintro rfl
    exact sampled allowed
  · rintro rfl
    exact ticked allowed

end RttTimer

namespace Endpoint

variable {s : Endpoint} {e : Event}

/-- The longest count that, scaled by 8, still fits a `short`. -/
def maxCount : Int := 4095

/-- A packet that ends a measurement does so within `maxSample` ticks, and the count of a
measurement that no packet ends stays below `maxCount`. -/
structure Timely (s : Endpoint) (e : Event) : Prop where
  tick : e matches .slowTimo → s.cb.rtt.toInt < maxCount
  sample : ∀ p ∈ s.arriving e, s.Samples p → s.cb.rtt.toInt ≤ Estimate.maxSample

instance (s : Endpoint) (e : Event) : Decidable (s.Timely e) :=
  decidable_of_iff (((e matches .slowTimo) = true → s.cb.rtt.toInt < maxCount) ∧
      ∀ p ∈ s.arriving e, s.Samples p → s.cb.rtt.toInt ≤ Estimate.maxSample)
    ⟨fun met => ⟨met.1, met.2⟩, fun timely => ⟨timely.tick, timely.sample⟩⟩

theorem ticked_toInt {n : Half} (low : 0 ≤ n.toInt) (high : n.toInt < maxCount) :
    0 ≤ (if n ≠ 0 then n + 1 else n).toInt ∧ (if n ≠ 0 then n + 1 else n).toInt ≤ maxCount := by
  have one : (1 : Half).toInt = 1 := rfl
  unfold maxCount at high ⊢
  split
  · rw [toInt_add_fits (by omega) (by omega)]
    omega
  · omega

theorem slowTimo_paced (paced : s.rttTimer.Paced maxCount) (short : s.cb.rtt.toInt < maxCount) :
    (s.step .slowTimo).rttTimer.Paced maxCount := by
  rw [step, slowTimer]
  split
  case isFalse => exact paced
  have below : s.rttTimer.Paced (maxCount - 1) :=
    ⟨paced.settled, paced.counted, Int.le_sub_one_of_lt short⟩
  obtain ⟨r, path, result⟩ := s.handleSlowTimo_rttTimer (C := fun a => a ≠ .sample ∧ a ≠ .tick)
    (by simp) (by simp) (by simp)
  have kept := path.paced below (by decide) (by simp) (by simp)
  obtain ⟨low, high⟩ := ticked_toInt kept.counted (Int.lt_of_le_sub_one kept.short)
  rw [result]
  exact ⟨kept.settled, low, high⟩

theorem step_paced (paced : s.rttTimer.Paced maxCount) (timely : s.Timely e) :
    (s.step e).rttTimer.Paced maxCount := by
  by_cases slow : e = .slowTimo
  · subst slow
    exact slowTimo_paced paced (timely.tick rfl)
  by_cases samples : ∃ p ∈ s.arriving e, s.Samples p
  · obtain ⟨p, here, ends⟩ := samples
    have within : s.rttTimer.Paced Estimate.maxSample :=
      ⟨paced.settled, paced.counted, timely.sample p here ends⟩
    have path := step_rttTimer (s := s) (C := fun a => a ≠ .tick) slow (by simp) (by simp)
      fun _ _ _ => by simp
    have kept := path.paced within (by decide) (fun _ => le_rfl) (by simp)
    exact ⟨kept.settled, kept.counted, kept.short.trans (by decide)⟩
  · have path := step_rttTimer (C := fun a => a ≠ .sample ∧ a ≠ .tick) slow (by simp) (by simp)
      fun p here ends => absurd ⟨p, here, ends⟩ samples
    exact path.paced paced (by decide) (by simp) (by simp)

/-- As long as measurements end in time, or not at all, no timer computation wraps in any state of
any run, and the retransmission value grows with the backoff. -/
theorem timers_exact_of_timely (fack sndSeq rcvSeq : Word) (env : Env) (es : List Event)
    (timely : Trace.Meets step Timely (init fack sndSeq rcvSeq env) es) :
    ((init fack sndSeq rcvSeq env).run es).TimersExact := by
  have zero : 0 ≤ (0 : Half).toInt ∧ (0 : Half).toInt ≤ maxCount := by decide
  have start : (init fack sndSeq rcvSeq env).rttTimer.Paced maxCount :=
    ⟨Estimate.settled_initial, zero.1, zero.2⟩
  have paced : ((init fack sndSeq rcvSeq env).run es).rttTimer.Paced maxCount :=
    timely.invariant (I := fun s => s.rttTimer.Paced maxCount) start
      fun s e paced timely => step_paced paced timely
  exact timersExact_of_settled (run_clock_good es (init_clock_good fack sndSeq rcvSeq env))
    paced.settled paced.counted paced.short

/-- A bare acknowledgement that echoes the segment at `pseq`. -/
def echo (ack pseq : Word) : Event := .datagram ⟨0, UdtHdr.TH_ACK, 65535, 0, 20, 101, ack, pseq⟩ []

/-- A passive open whose SYN was sent twice, and then one byte, whose acknowledgement echoes another
segment. After `ticks` ticks a packet echoes the byte's segment. -/
def echoAfter (ticks : Nat) : List Event :=
  [.accept 0, .datagram ⟨0, UdtHdr.TH_SYN, 65535, 0, 20, 100, 0, 0⟩ []] ++
    List.replicate 6 .slowTimo ++ [echo 1 9, .sendByte 7, echo 2 9] ++
    List.replicate ticks .slowTimo ++ [echo 2 1]

theorem timers_exact_of_timely_prompt :
    ((init 0 0 0 Env.zero).run (echoAfter 5)).TimersExact :=
  timers_exact_of_timely 0 0 0 Env.zero (echoAfter 5) (by decide +kernel)

/-- A sample of 171 ticks: with a backoff of 64 the value wraps, and the shortest one is used. -/
theorem late_echo_wraps : ¬ ((init 0 0 0 Env.zero).run (echoAfter 170)).TimersExact := by
  intro timers
  exact absurd (timers.rexmt 6 (by decide)) (by decide +kernel)

end Endpoint

end UdtBoost
