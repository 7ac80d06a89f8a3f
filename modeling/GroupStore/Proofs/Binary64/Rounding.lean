import GroupStore.Proofs.Binary64.Shortest
import Mathlib

/-!
# Rounding to the nearest magnitude, and back from the shortest digits

Every magnitude has an interval of numbers that are nearer to it than to any other, ends included if
its mantissa is even.  A fraction in the interval is rounded to the magnitude, and what the shortest
digits stand for lies in it; so rounding them gives the magnitude back.

* `Binary64.Canonical` — the one form of a magnitude;
* `Binary64.Within` — the interval of a magnitude;
* `Binary64.nearest_of_within` — what lies in it is rounded to the magnitude;
* `Binary64.nearest_canonical`, `Binary64.scaled_canonical` — what is rounded has the one form;
* `Binary64.shortest_within` — the shortest digits lie in it.
-/

namespace GroupStore.Binary64

/-! ### Powers and fractions -/

theorem cast_twoTo (n : Nat) : (twoTo n : ℚ) = 2 ^ n := by
  rw [twoTo]
  exact Nat.cast_pow 2 n

theorem cast_tenTo (n : Nat) : (tenTo n : ℚ) = 10 ^ n := by
  rw [tenTo]
  exact Nat.cast_pow 10 n

theorem twoTo_pos (n : Nat) : 0 < twoTo n := Nat.pow_pos (by decide)

theorem tenTo_pos (n : Nat) : 0 < tenTo n := Nat.pow_pos (by decide)

/-- A power below one is the inverse of one above. -/
theorem zpow_of_neg {b : ℚ} {e : Int} (negative : ¬0 ≤ e) : b ^ e = (b ^ (-e).toNat)⁻¹ := by
  have power : e = -((-e).toNat : Int) := by omega
  conv_lhs => rw [power]
  rw [zpow_neg, zpow_natCast]

theorem zpow_of_nonneg {b : ℚ} {e : Int} (nonneg : 0 ≤ e) : b ^ e = b ^ e.toNat := by
  conv_lhs => rw [← Int.toNat_of_nonneg nonneg]
  rw [zpow_natCast]

/-- The fraction that is shifted is the fraction divided by the power. -/
theorem shifted_eq (num : Nat) {den : Nat} (positive : 0 < den) (e : Int) :
    0 < (shifted num den e).2 ∧
      ((shifted num den e).1 : ℚ) / (shifted num den e).2 = num / den / 2 ^ e := by
  unfold shifted
  by_cases up : 0 ≤ e
  · rw [if_pos up, zpow_of_nonneg up]
    refine ⟨Nat.mul_pos positive (twoTo_pos _), ?_⟩
    rw [Nat.cast_mul, cast_twoTo, div_div]
  · rw [if_neg up, zpow_of_neg up]
    refine ⟨positive, ?_⟩
    rw [Nat.cast_mul, cast_twoTo, div_inv_eq_mul, mul_div_right_comm]

/-! ### Quotients -/

theorem roundDiv_near (num : Nat) {den : Nat} (positive : 0 < den) :
    2 * (roundDiv num den * den) ≤ 2 * num + den ∧
      2 * num ≤ 2 * (roundDiv num den * den) + den := by
  have split := Nat.div_add_mod num den
  have small := Nat.mod_lt num positive
  unfold roundDiv
  rw [Nat.mul_comm] at split
  generalize num / den = q at *
  generalize num % den = r at *
  by_cases below : 2 * r < den
  · simp only [if_pos below]
    omega
  · simp only [if_neg below]
    by_cases above : 2 * r > den
    · simp only [if_pos above, Nat.add_mul]
      omega
    · simp only [if_neg above]
      rcases Nat.mod_two_eq_zero_or_one q with even | odd
      · rw [even, Nat.add_zero]
        omega
      · rw [odd, Nat.add_mul]
        omega

theorem roundDiv_eq {num den m : Nat} (positive : 0 < den) (low : 2 * (m * den) ≤ 2 * num + den)
    (high : 2 * num ≤ 2 * (m * den) + den)
    (odd : m % 2 = 1 → 2 * (m * den) < 2 * num + den ∧ 2 * num < 2 * (m * den) + den) :
    roundDiv num den = m := by
  have split := Nat.div_add_mod num den
  have small := Nat.mod_lt num positive
  rw [Nat.mul_comm] at split
  unfold roundDiv
  generalize num / den = q at *
  generalize num % den = r at *
  have reached : q ≤ m := by
    by_contra short
    have step : (m + 1) * den ≤ q * den := Nat.mul_le_mul_right den (by omega)
    rw [Nat.add_mul] at step
    omega
  have bounded : m ≤ q + 1 := by
    by_contra far
    have step : (q + 2) * den ≤ m * den := Nat.mul_le_mul_right den (by omega)
    rw [Nat.add_mul] at step
    omega
  obtain rfl | rfl : m = q ∨ m = q + 1 := by omega
  · by_cases below : 2 * r < den
    · simp only [if_pos below]
    · have tie : 2 * r = den := by omega
      have even : m % 2 = 0 := by
        by_contra other
        have strict := odd (by omega)
        omega
      simp only [tie, gt_iff_lt, Nat.lt_irrefl, if_false, even, Nat.add_zero]
  · rw [Nat.add_mul] at low odd
    by_cases above : 2 * r > den
    · simp only [if_neg (show ¬2 * r < den by omega), if_pos above]
    · have tie : 2 * r = den := by omega
      have even : (q + 1) % 2 = 0 := by
        by_contra other
        have strict := odd (by omega)
        omega
      have last : q % 2 = 1 := by omega
      simp only [tie, gt_iff_lt, Nat.lt_irrefl, if_false, last]

/-! ### The nearest magnitude -/

/-- The number that a magnitude stands for. -/
def rational (x : Magnitude) : ℚ := x.1 * 2 ^ x.2

/-- A magnitude in its one form: the mantissa has full length, unless the exponent is the least. -/
structure Canonical (x : Magnitude) : Prop where
  short : x.1 < 2 * fullMantissa
  low : minExponent ≤ x.2
  high : x.2 ≤ maxExponent
  full : minExponent < x.2 → fullMantissa ≤ x.1

/-- A number lies in the interval of those that round to a magnitude. -/
def Within (x : Magnitude) (v : ℚ) : Prop :=
  let unit : ℚ := 2 ^ (x.2 - 2)
  let (low, high) := interval x
  if x.1 % 2 = 0 then low * unit ≤ v ∧ v ≤ high * unit else low * unit < v ∧ v < high * unit

/-- A decimal number as a fraction. -/
def decimal (d : Nat) (k : Int) : Nat × Nat :=
  if 0 ≤ k then (d * tenTo k.toNat, 1) else (d, tenTo (-k).toNat)

theorem decimal_eq (d : Nat) (k : Int) :
    0 < (decimal d k).2 ∧ ((decimal d k).1 : ℚ) / (decimal d k).2 = d * 10 ^ k := by
  unfold decimal
  by_cases up : 0 ≤ k
  · rw [if_pos up, zpow_of_nonneg up]
    refine ⟨Nat.one_pos, ?_⟩
    rw [Nat.cast_mul, cast_tenTo, Nat.cast_one, div_one]
  · rw [if_neg up, zpow_of_neg up]
    refine ⟨tenTo_pos _, ?_⟩
    rw [cast_tenTo, div_eq_mul_inv]

theorem roundsTo_iff (x : Magnitude) (d : Nat) (k : Int) :
    roundsTo x d k = true ↔ Within x (d * 10 ^ k) := by
  obtain ⟨positive, value⟩ := decimal_eq d k
  obtain ⟨positive', value'⟩ := shifted_eq (decimal d k).1 positive (x.2 - 2)
  have unfolded : roundsTo x d k =
      let (dn, dd) := shifted (decimal d k).1 (decimal d k).2 (x.2 - 2)
      let (low, high) := interval x
      if x.1 % 2 = 0 then decide (low * dd ≤ dn) && decide (dn ≤ high * dd)
      else decide (low * dd < dn) && decide (dn < high * dd) := rfl
  rw [unfolded]
  unfold Within
  rcases split : shifted (decimal d k).1 (decimal d k).2 (x.2 - 2) with ⟨dn, dd⟩
  rw [split] at positive' value'
  rcases interval x with ⟨low, high⟩
  have unit : (0 : ℚ) < 2 ^ (x.2 - 2) := by positivity
  have room : (0 : ℚ) < dd := by exact_mod_cast positive'
  rw [value] at value'
  have scaled : (dn : ℚ) = d * 10 ^ k / 2 ^ (x.2 - 2) * dd := by
    rw [← value']
    field_simp
  have le_iff (n : Nat) : n * dd ≤ dn ↔ (n : ℚ) * 2 ^ (x.2 - 2) ≤ d * 10 ^ k := by
    rw [← le_div_iff₀ unit, ← mul_le_mul_iff_left₀ room, ← scaled]
    exact_mod_cast Iff.rfl
  have ge_iff (n : Nat) : dn ≤ n * dd ↔ (d : ℚ) * 10 ^ k ≤ n * 2 ^ (x.2 - 2) := by
    rw [← div_le_iff₀ unit, ← mul_le_mul_iff_left₀ room, ← scaled]
    exact_mod_cast Iff.rfl
  have lt_iff (n : Nat) : n * dd < dn ↔ (n : ℚ) * 2 ^ (x.2 - 2) < d * 10 ^ k := by
    rw [← not_le, ge_iff, not_le]
  have gt_iff (n : Nat) : dn < n * dd ↔ (d : ℚ) * 10 ^ k < n * 2 ^ (x.2 - 2) := by
    rw [← not_le, le_iff, not_le]
  by_cases even : x.1 % 2 = 0
  · simp only [even, if_true, Bool.and_eq_true, decide_eq_true_eq, le_iff, ge_iff]
  · simp only [even, if_false, Bool.and_eq_true, decide_eq_true_eq, lt_iff, gt_iff]

/-- A number has one exponent at which its mantissa has full length. -/
theorem exponent_unique {v : ℚ} {e e' : Int} (low : (2 : ℚ) ^ 52 * 2 ^ e ≤ v)
    (high : v < (2 : ℚ) ^ 53 * 2 ^ e') : e ≤ e' := by
  by_contra less
  have step : (2 : ℚ) ^ (e' + 1) ≤ 2 ^ e := zpow_le_zpow_right₀ (by norm_num) (by omega)
  rw [zpow_add_one₀ (by norm_num)] at step
  have whole : (2 : ℚ) ^ 53 * 2 ^ e' ≤ 2 ^ 52 * 2 ^ e := by
    calc (2 : ℚ) ^ 53 * 2 ^ e' = 2 ^ 52 * (2 ^ e' * 2) := by ring
      _ ≤ 2 ^ 52 * 2 ^ e := by gcongr
  linarith

theorem exponentOf_cases {num den : Nat} (numPos : 0 < num) (positive : 0 < den) :
    ∃ e, exponentOf num den = max minExponent e ∧ (2 : ℚ) ^ 52 * 2 ^ e ≤ num / den ∧
      (num : ℚ) / den < 2 ^ 53 * 2 ^ e := by
  have numLow : (2 : ℚ) ^ num.log2 ≤ num := by exact_mod_cast Nat.log2_self_le numPos.ne'
  have numHigh : (num : ℚ) < 2 ^ (num.log2 + 1) := by exact_mod_cast Nat.lt_log2_self
  have denLow : (2 : ℚ) ^ den.log2 ≤ den := by exact_mod_cast Nat.log2_self_le positive.ne'
  have denHigh : (den : ℚ) < 2 ^ (den.log2 + 1) := by exact_mod_cast Nat.lt_log2_self
  have room : (0 : ℚ) < den := by exact_mod_cast positive
  generalize lowIs : (num.log2 : Int) - (den.log2 : Int) - 53 = low
  have powers : (2 : ℚ) ^ num.log2 = 2 ^ den.log2 * (2 ^ 53 * 2 ^ low) := by
    rw [← zpow_natCast, ← zpow_natCast, ← zpow_natCast, ← zpow_add₀ (by norm_num),
      ← zpow_add₀ (by norm_num)]
    congr 1
    push_cast
    omega
  have unit : (0 : ℚ) < 2 ^ low := by positivity
  have above : (2 : ℚ) ^ 52 * 2 ^ low ≤ num / den := by
    rw [le_div_iff₀ room]
    calc (2 : ℚ) ^ 52 * 2 ^ low * den ≤ 2 ^ 52 * 2 ^ low * 2 ^ (den.log2 + 1) := by gcongr
      _ = 2 ^ den.log2 * (2 ^ 53 * 2 ^ low) := by ring
      _ ≤ num := by rw [← powers]; exact numLow
  have below : (num : ℚ) / den < 2 ^ 54 * 2 ^ low := by
    rw [div_lt_iff₀ room]
    calc (num : ℚ) < 2 ^ (num.log2 + 1) := numHigh
      _ = 2 ^ den.log2 * (2 ^ 53 * 2 ^ low) * 2 := by rw [pow_succ, powers]
      _ = 2 ^ 54 * 2 ^ low * 2 ^ den.log2 := by ring
      _ ≤ 2 ^ 54 * 2 ^ low * den := by gcongr
  obtain ⟨positive', value⟩ := shifted_eq num positive low
  have unfolded : exponentOf num den =
      max minExponent (if (shifted num den low).1 / (shifted num den low).2 < 2 * fullMantissa
        then low else low + 1) := by
    rw [← lowIs]
    rfl
  rw [unfolded]
  rcases split : shifted num den low with ⟨n, d⟩
  rw [split] at positive' value
  have room' : (0 : ℚ) < d := by exact_mod_cast positive'
  have fits : n / d < 2 * fullMantissa ↔ (num : ℚ) / den < 2 ^ 53 * 2 ^ low := by
    rw [← div_lt_iff₀ unit, ← value, div_lt_iff₀ room', Nat.div_lt_iff_lt_mul positive']
    exact_mod_cast Iff.rfl
  by_cases small : n / d < 2 * fullMantissa
  · exact ⟨low, by rw [if_pos small], above, fits.mp small⟩
  · refine ⟨low + 1, by rw [if_neg small], ?_, ?_⟩
    · rw [zpow_add_one₀ (by norm_num)]
      have large := not_lt.mp (mt fits.mpr small)
      linarith
    · rw [zpow_add_one₀ (by norm_num)]
      linarith


/-- Below a power of two the interval reaches half as far as above it. -/
theorem interval_cases (x : Magnitude) :
    interval x = (4 * x.1 - 1, 4 * x.1 + 2) ∧ x.1 = fullMantissa ∧ minExponent < x.2 ∨
      interval x = (4 * x.1 - 2, 4 * x.1 + 2) ∧ ¬(x.1 = fullMantissa ∧ minExponent < x.2) := by
  unfold interval
  by_cases edge : x.1 = fullMantissa ∧ minExponent < x.2
  · exact .inl ⟨by rw [if_pos edge], edge⟩
  · exact .inr ⟨by rw [if_neg edge], edge⟩

theorem roundDiv_of_rational {n d m : Nat} (positive : 0 < d)
    (low : (m : ℚ) - 1 / 2 ≤ n / d) (high : (n : ℚ) / d ≤ m + 1 / 2)
    (odd : m % 2 = 1 → (m : ℚ) - 1 / 2 < n / d ∧ (n : ℚ) / d < m + 1 / 2) :
    roundDiv n d = m := by
  have room : (0 : ℚ) < d := by exact_mod_cast positive
  refine roundDiv_eq positive ?_ ?_ fun own => ?_
  · rw [le_div_iff₀ room] at low
    have whole : (2 : ℚ) * (m * d) ≤ 2 * n + d := by linarith
    exact_mod_cast whole
  · rw [div_le_iff₀ room] at high
    have whole : (2 : ℚ) * n ≤ 2 * (m * d) + d := by linarith
    exact_mod_cast whole
  · obtain ⟨low', high'⟩ := odd own
    rw [lt_div_iff₀ room] at low'
    rw [div_lt_iff₀ room] at high'
    have under : (2 : ℚ) * (m * d) < 2 * n + d := by linarith
    have beyond : (2 : ℚ) * n < 2 * (m * d) + d := by linarith
    exact ⟨by exact_mod_cast under, by exact_mod_cast beyond⟩

/-- What lies within reach of a magnitude is at most half a unit away from it, above a power of two
at most a quarter below. -/
theorem Within.bounds {x : Magnitude} {v : ℚ} (within : Within x v) (nonzero : x.1 ≠ 0) :
    ((x.1 : ℚ) - 1 / 2) * 2 ^ x.2 ≤ v ∧ v ≤ (x.1 + 1 / 2) * 2 ^ x.2 ∧
      (x.1 % 2 = 1 → ((x.1 : ℚ) - 1 / 2) * 2 ^ x.2 < v ∧ v < (x.1 + 1 / 2) * 2 ^ x.2) ∧
      (x.1 = fullMantissa ∧ minExponent < x.2 → ((x.1 : ℚ) - 1 / 4) * 2 ^ x.2 ≤ v) := by
  have unit : (2 : ℚ) ^ x.2 = 4 * 2 ^ (x.2 - 2) := by
    rw [zpow_sub₀ (by norm_num)]
    ring
  have positive : (0 : ℚ) < 2 ^ (x.2 - 2) := by positivity
  have one : (1 : ℚ) ≤ x.1 := by exact_mod_cast Nat.one_le_iff_ne_zero.mpr nonzero
  have quarter : ((4 * x.1 - 1 : Nat) : ℚ) = 4 * x.1 - 1 := by
    rw [Nat.cast_sub (by omega)]
    push_cast
    ring
  have half : ((4 * x.1 - 2 : Nat) : ℚ) = 4 * x.1 - 2 := by
    rw [Nat.cast_sub (by omega)]
    push_cast
    ring
  have top : ((4 * x.1 + 2 : Nat) : ℚ) = 4 * x.1 + 2 := by push_cast; ring
  unfold Within at within
  rw [unit]
  rcases interval_cases x with ⟨ends, edge⟩ | ⟨ends, edge⟩
  · simp only [ends, quarter, top] at within
    split at within
    · refine ⟨by linarith, by linarith, fun odd => by omega, fun _ => by linarith⟩
    · exact ⟨by linarith, by linarith, fun _ => ⟨by linarith, by linarith⟩, fun _ => by linarith⟩
  · simp only [ends, half, top] at within
    split at within
    · exact ⟨by linarith, by linarith, fun odd => by omega, fun own => absurd own edge⟩
    · exact ⟨by linarith, by linarith, fun _ => ⟨by linarith, by linarith⟩,
        fun own => absurd own edge⟩

/-- The exponent of a number that a magnitude of full length reaches. -/
theorem exponentOf_eq {num den : Nat} (numPos : 0 < num) (positive : 0 < den) {e : Int}
    (least : minExponent ≤ e) (high : (num : ℚ) / den < 2 ^ 53 * 2 ^ e)
    (low : e = minExponent ∨ (2 : ℚ) ^ 52 * 2 ^ e ≤ num / den) : exponentOf num den = e := by
  obtain ⟨e', exponentEq, low', high'⟩ := exponentOf_cases numPos positive
  have below := exponent_unique low' high
  rw [exponentEq]
  rcases low with rfl | low
  · exact max_eq_left below
  · have above := exponent_unique low high'
    rw [le_antisymm below above]
    exact max_eq_right least

/-- A number that is rounded at an exponent. -/
theorem roundDiv_shifted {num den m : Nat} (positive : 0 < den) (e : Int)
    (low : ((m : ℚ) - 1 / 2) * 2 ^ e ≤ num / den) (high : (num : ℚ) / den ≤ (m + 1 / 2) * 2 ^ e)
    (odd : m % 2 = 1 → ((m : ℚ) - 1 / 2) * 2 ^ e < num / den ∧
      (num : ℚ) / den < (m + 1 / 2) * 2 ^ e) :
    roundDiv (shifted num den e).1 (shifted num den e).2 = m := by
  obtain ⟨positive', value⟩ := shifted_eq num positive e
  have unit : (0 : ℚ) < 2 ^ e := by positivity
  refine roundDiv_of_rational positive' ?_ ?_ fun own => ?_
  · rwa [value, le_div_iff₀ unit]
  · rwa [value, div_le_iff₀ unit]
  · rw [value, lt_div_iff₀ unit, div_lt_iff₀ unit]
    exact odd own

/-- A fraction that lies within reach of a magnitude is rounded to it. -/
theorem nearest_of_within {num den : Nat} {x : Magnitude} (canonical : Canonical x)
    (nonzero : x.1 ≠ 0) (positive : 0 < den) (within : Within x (num / den)) :
    nearest num den = some x := by
  obtain ⟨low, high, odd, edge⟩ := within.bounds nonzero
  have unit : (0 : ℚ) < 2 ^ x.2 := by positivity
  have one : (1 : ℚ) ≤ x.1 := by exact_mod_cast Nat.one_le_iff_ne_zero.mpr nonzero
  have short : (x.1 : ℚ) + 1 ≤ 2 ^ 53 := by exact_mod_cast canonical.short
  have below : (num : ℚ) / den < 2 ^ 53 * 2 ^ x.2 := by nlinarith
  have numPos : 0 < num := by
    rcases Nat.eq_zero_or_pos num with rfl | more
    · rw [Nat.cast_zero, zero_div] at low
      nlinarith
    · exact more
  unfold nearest
  rw [if_neg numPos.ne']
  by_cases inside : x.2 = minExponent ∨ (2 : ℚ) ^ 52 * 2 ^ x.2 ≤ num / den
  · have rounded := roundDiv_shifted positive x.2 low high odd
    have noCarry : ¬x.1 = 2 * fullMantissa := canonical.short.ne
    simp only [exponentOf_eq numPos positive canonical.low below inside, rounded, if_neg noCarry,
      if_pos canonical.high]
  · -- the number lies below the power of two, where the unit is half as large
    rw [not_or, not_le] at inside
    obtain ⟨more, under⟩ := inside
    have more' : minExponent < x.2 := lt_of_le_of_ne canonical.low (Ne.symm more)
    have full : x.1 = fullMantissa := by
      refine le_antisymm ?_ (canonical.full more')
      have bound : (x.1 : ℚ) < 2 ^ 52 + 1 := by nlinarith
      have bound' : x.1 < 2 ^ 52 + 1 := by exact_mod_cast bound
      exact Nat.lt_succ_iff.mp bound'
    have near := edge ⟨full, more'⟩
    have mantissa : (x.1 : ℚ) = 2 ^ 52 := by rw [full]; norm_cast
    have halved : (2 : ℚ) ^ x.2 = 2 * 2 ^ (x.2 - 1) := by
      rw [zpow_sub_one₀ (by norm_num)]
      ring
    rw [mantissa, halved] at near
    rw [halved] at under
    have unit' : (0 : ℚ) < 2 ^ (x.2 - 1) := by positivity
    have exponent : exponentOf num den = x.2 - 1 :=
      exponentOf_eq numPos positive (by omega) (by linarith) (.inr (by linarith))
    have doubled : ((2 * fullMantissa : Nat) : ℚ) = 2 ^ 53 := by norm_cast
    have rounded : roundDiv (shifted num den (x.2 - 1)).1 (shifted num den (x.2 - 1)).2 =
        2 * fullMantissa := by
      refine roundDiv_shifted positive _ ?_ ?_ fun own => ?_
      · rw [doubled]
        linarith
      · rw [doubled]
        linarith
      · rw [Nat.mul_mod_right] at own
        cases own
    have back : x.2 - 1 + 1 = x.2 := by omega
    simp only [exponent, rounded, if_true, back, if_pos canonical.high, ← full]

/-! ### What is rounded has the one form -/

theorem roundDiv_cases (num den : Nat) :
    roundDiv num den = num / den ∨ roundDiv num den = num / den + 1 := by
  unfold roundDiv
  dsimp only
  split
  · exact .inl rfl
  · split
    · exact .inr rfl
    · rcases Nat.mod_two_eq_zero_or_one (num / den) with even | odd
      · exact .inl (by rw [even, Nat.add_zero])
      · exact .inr (by rw [odd])

/-- The mantissa at the exponent of a positive fraction, before it is rounded. -/
theorem shifted_exponentOf {num den : Nat} (numPos : 0 < num) (positive : 0 < den) :
    (shifted num den (exponentOf num den)).1 / (shifted num den (exponentOf num den)).2 <
        2 * fullMantissa ∧
      minExponent ≤ exponentOf num den ∧
      (minExponent < exponentOf num den ∨ 1 ≤ (num : ℚ) / den → fullMantissa ≤
        (shifted num den (exponentOf num den)).1 / (shifted num den (exponentOf num den)).2) := by
  obtain ⟨e, exponentEq, low, high⟩ := exponentOf_cases numPos positive
  obtain ⟨positive', value⟩ := shifted_eq num positive (exponentOf num den)
  have unit : (0 : ℚ) < 2 ^ exponentOf num den := by positivity
  have least : minExponent ≤ exponentOf num den := exponentEq ▸ le_max_left _ _
  generalize (shifted num den (exponentOf num den)).1 = n at *
  generalize (shifted num den (exponentOf num den)).2 = d at *
  have room : (0 : ℚ) < d := by exact_mod_cast positive'
  refine ⟨?_, least, fun full => ?_⟩
  · have above : (2 : ℚ) ^ e ≤ 2 ^ exponentOf num den :=
      zpow_le_zpow_right₀ (by norm_num) (exponentEq ▸ le_max_right _ _)
    have small : (n : ℚ) < 2 ^ 53 * d := by
      rw [← div_lt_iff₀ room, value, div_lt_iff₀ unit]
      exact high.trans_le (by gcongr)
    rw [Nat.div_lt_iff_lt_mul positive']
    exact_mod_cast small
  · have reached : e = exponentOf num den := by
      rcases full with more | one
      · rw [exponentEq] at more ⊢
        rcases le_total e minExponent with below | above
        · rw [max_eq_left below] at more
          exact absurd more (lt_irrefl _)
        · exact (max_eq_right above).symm
      · have range : minExponent = -1074 := rfl
        have large : -53 ≤ e := by
          by_contra short
          have step : (2 : ℚ) ^ e ≤ 2 ^ (-53 : Int) := zpow_le_zpow_right₀ (by norm_num) (by omega)
          have inverse : (2 : ℚ) ^ 53 * 2 ^ (-53 : Int) = 1 := by norm_num
          nlinarith
        rw [exponentEq]
        omega
    have large : (2 : ℚ) ^ 52 * d ≤ n := by
      rw [← le_div_iff₀ room, value, le_div_iff₀ unit, ← reached]
      exact low
    rw [Nat.le_div_iff_mul_le positive']
    exact_mod_cast large

/-- What a fraction is rounded to has the one form; from one on it has a full mantissa. -/
theorem nearest_canonical {num den : Nat} {x : Magnitude} (positive : 0 < den)
    (found : nearest num den = some x) : Canonical x ∧ (den ≤ num → x.1 ≠ 0) := by
  have zero : Canonical (0, minExponent) :=
    ⟨by decide, le_refl _, by decide, fun less => absurd less (lt_irrefl _)⟩
  unfold nearest at found
  by_cases zeroNum : num = 0
  · rw [if_pos zeroNum] at found
    cases found
    exact ⟨zero, fun large => by omega⟩
  · have numPos := Nat.pos_of_ne_zero zeroNum
    have room : (0 : ℚ) < den := by exact_mod_cast positive
    obtain ⟨small, least, full⟩ := shifted_exponentOf numPos positive
    rw [if_neg zeroNum] at found
    dsimp only at found
    have nonempty : 0 < fullMantissa := by decide
    have one : den ≤ num → fullMantissa ≤
        (shifted num den (exponentOf num den)).1 / (shifted num den (exponentOf num den)).2 := by
      intro large
      refine full (.inr ?_)
      rw [one_le_div room]
      exact_mod_cast large
    have cases' := roundDiv_cases (shifted num den (exponentOf num den)).1
      (shifted num den (exponentOf num den)).2
    generalize roundDiv (shifted num den (exponentOf num den)).1
      (shifted num den (exponentOf num den)).2 = m at *
    generalize (shifted num den (exponentOf num den)).1 /
      (shifted num den (exponentOf num den)).2 = q at *
    by_cases carry : m = 2 * fullMantissa
    · simp only [if_pos carry] at found
      split at found
      · rename_i fits
        cases found
        exact
          ⟨⟨by show fullMantissa < _; omega, by show _ ≤ _ + 1; omega, fits, fun _ => le_refl _⟩,
          fun _ => nonempty.ne'⟩
      · cases found
    · simp only [if_neg carry] at found
      split at found
      · rename_i fits
        cases found
        refine ⟨⟨by show m < _; omega, least, fits, fun more => ?_⟩, fun large => ?_⟩
        · have reached := full (.inl more)
          show fullMantissa ≤ m
          omega
        · have reached := one large
          show m ≠ 0
          omega
      · cases found

theorem fraction_eq (x : Magnitude) :
    0 < (fraction x).2 ∧ ((fraction x).1 : ℚ) / (fraction x).2 = rational x := by
  unfold fraction rational
  by_cases up : 0 ≤ x.2
  · rw [if_pos up, zpow_of_nonneg up]
    exact ⟨Nat.one_pos, by rw [Nat.cast_mul, cast_twoTo, Nat.cast_one, div_one]⟩
  · rw [if_neg up, zpow_of_neg up]
    exact ⟨twoTo_pos _, by rw [cast_twoTo, div_eq_mul_inv]⟩

theorem fraction_pos {x : Magnitude} (nonzero : x.1 ≠ 0) : 0 < (fraction x).1 := by
  unfold fraction
  split
  · exact Nat.mul_pos (Nat.pos_of_ne_zero nonzero) (twoTo_pos _)
  · exact Nat.pos_of_ne_zero nonzero

theorem mul_canonical {x y z : Magnitude} (found : mul x y = some z) : Canonical z :=
  (nearest_canonical (Nat.mul_pos (fraction_eq x).1 (fraction_eq y).1) found).1

theorem div_canonical {x y z : Magnitude} (nonzero : y.1 ≠ 0) (found : div x y = some z) :
    Canonical z :=
  (nearest_canonical (Nat.mul_pos (fraction_eq x).1 (fraction_pos nonzero)) found).1

/-- Powers of ten are not rounded to zero. -/
theorem nearest_tenTo {n : Nat} {y : Magnitude} (found : nearest (tenTo n) 1 = some y) : y.1 ≠ 0 :=
  (nearest_canonical Nat.one_pos found).2 (tenTo_pos n)

theorem divPower_canonical {x z : Magnitude} {n : Nat} (canonical : Canonical x)
    (found : divPower x n = some z) : Canonical z := by
  induction x, n using divPower.induct with
  | case1 x n small =>
    rw [divPower, if_pos small] at found
    obtain ⟨y, power, quotient⟩ := Option.bind_eq_some_iff.mp found
    exact div_canonical (nearest_tenTo power) quotient
  | case2 x n large zero =>
    rw [divPower, if_neg large, if_pos zero] at found
    cases found
    exact canonical
  | case3 x n large nonzero ih =>
    rw [divPower, if_neg large, if_neg nonzero] at found
    obtain ⟨y, step, rest⟩ := Option.bind_eq_some_iff.mp found
    obtain ⟨y', power, quotient⟩ := Option.bind_eq_some_iff.mp step
    exact ih y (div_canonical (nearest_tenTo power) quotient) rest

theorem mulPower_canonical {x z : Magnitude} {n : Nat} (canonical : Canonical x)
    (found : mulPower x n = some z) : Canonical z := by
  unfold mulPower at found
  split at found
  · obtain ⟨y, -, product⟩ := Option.bind_eq_some_iff.mp found
    exact mul_canonical product
  · split at found
    · cases found
      exact canonical
    · cases found

/-- What an integer times a power of ten is rounded to has the one form. -/
theorem scaled_canonical {significand : Nat} {power : Int} {z : Magnitude}
    (found : scaled significand power = some z) : Canonical z := by
  obtain ⟨x, integer, rest⟩ := Option.bind_eq_some_iff.mp found
  have canonical := (nearest_canonical Nat.one_pos integer).1
  split at rest
  · exact mulPower_canonical canonical rest
  · exact divPower_canonical canonical rest

/-! ### The shortest digits -/

theorem inSteps_eq (x : Magnitude) (k : Int) :
    0 < (inSteps x k).2 ∧ ((inSteps x k).1 : ℚ) / (inSteps x k).2 = rational x / 10 ^ k := by
  obtain ⟨positive, value⟩ := fraction_eq x
  unfold inSteps
  by_cases up : 0 ≤ k
  · rw [if_pos up, zpow_of_nonneg up, ← value]
    refine ⟨Nat.mul_pos positive (tenTo_pos _), ?_⟩
    rw [Nat.cast_mul, cast_tenTo, div_div]
  · rw [if_neg up, zpow_of_neg up, ← value]
    refine ⟨positive, ?_⟩
    rw [Nat.cast_mul, cast_tenTo, div_inv_eq_mul, mul_div_right_comm]

/-- The point next to a magnitude is at most half a step away. -/
theorem near_bounds (x : Magnitude) (k : Int) :
    rational x - 10 ^ k / 2 ≤ roundDiv (inSteps x k).1 (inSteps x k).2 * 10 ^ k ∧
      (roundDiv (inSteps x k).1 (inSteps x k).2 : ℚ) * 10 ^ k ≤ rational x + 10 ^ k / 2 := by
  obtain ⟨positive, value⟩ := inSteps_eq x k
  obtain ⟨under, beyond⟩ := roundDiv_near (inSteps x k).1 positive
  have step : (0 : ℚ) < 10 ^ k := by positivity
  have room : (0 : ℚ) < (inSteps x k).2 := by exact_mod_cast positive
  generalize roundDiv (inSteps x k).1 (inSteps x k).2 = near at *
  constructor
  · have cast : (2 : ℚ) * (inSteps x k).1 ≤ 2 * (near * (inSteps x k).2) + (inSteps x k).2 := by
      exact_mod_cast beyond
    have scaled : rational x / 10 ^ k - 1 / 2 ≤ near := by
      rw [← value, sub_le_iff_le_add, div_le_iff₀ room]
      linarith
    calc rational x - 10 ^ k / 2 = (rational x / 10 ^ k - 1 / 2) * 10 ^ k := by field_simp
      _ ≤ near * 10 ^ k := by gcongr
  · have cast : (2 : ℚ) * (near * (inSteps x k).2) ≤ 2 * (inSteps x k).1 + (inSteps x k).2 := by
      exact_mod_cast under
    have scaled : (near : ℚ) ≤ rational x / 10 ^ k + 1 / 2 := by
      rw [← value, ← sub_le_iff_le_add, le_div_iff₀ room]
      linarith
    calc (near : ℚ) * 10 ^ k ≤ (rational x / 10 ^ k + 1 / 2) * 10 ^ k := by gcongr
      _ = rational x + 10 ^ k / 2 := by field_simp

/-- On a fine grid the point next to a magnitude rounds to it. -/
theorem onGrid?_fine {x : Magnitude} (nonzero : x.1 ≠ 0) {k : Int}
    (fine : (10 : ℚ) ^ k < 2 ^ (x.2 - 1)) : ∃ d, d ≠ 0 ∧ onGrid? x k = some d := by
  obtain ⟨high, low⟩ := near_bounds x k
  have one : (1 : ℚ) ≤ x.1 := by exact_mod_cast Nat.one_le_iff_ne_zero.mpr nonzero
  have unit : (0 : ℚ) < 2 ^ (x.2 - 2) := by positivity
  have step : (0 : ℚ) < 10 ^ k := by positivity
  generalize nearIs : roundDiv (inSteps x k).1 (inSteps x k).2 = near at high low
  have half : (2 : ℚ) ^ (x.2 - 1) = 2 * 2 ^ (x.2 - 2) := by
    rw [zpow_sub₀ (by norm_num), zpow_sub₀ (by norm_num)]
    ring
  have whole : rational x = 4 * x.1 * 2 ^ (x.2 - 2) := by
    rw [rational, zpow_sub₀ (by norm_num)]
    ring
  rw [half] at fine
  rw [whole] at low high
  have lowEnd : ((interval x).1 : ℚ) ≤ 4 * x.1 - 1 := by
    have natural : (interval x).1 + 1 ≤ 4 * x.1 := by
      rcases interval_cases x with ⟨ends, -⟩ | ⟨ends, -⟩ <;> rw [ends] <;> dsimp only <;> omega
    have cast : ((interval x).1 : ℚ) + 1 ≤ 4 * x.1 := by exact_mod_cast natural
    linarith
  have highEnd : ((interval x).2 : ℚ) = 4 * x.1 + 2 := by
    have natural : (interval x).2 = 4 * x.1 + 2 := rfl
    rw [natural]
    push_cast
    ring
  have strict : ((interval x).1 : ℚ) * 2 ^ (x.2 - 2) < near * 10 ^ k ∧
      (near : ℚ) * 10 ^ k < (interval x).2 * 2 ^ (x.2 - 2) := by
    constructor
    · calc ((interval x).1 : ℚ) * 2 ^ (x.2 - 2) ≤ (4 * x.1 - 1) * 2 ^ (x.2 - 2) := by gcongr
        _ < near * 10 ^ k := by linarith
    · rw [highEnd]
      linarith
  have rounds : roundsTo x near k = true := by
    rw [roundsTo_iff]
    unfold Within
    dsimp only
    split
    · exact ⟨strict.1.le, strict.2.le⟩
    · exact strict
  refine ⟨near, ?_, ?_⟩
  · rintro rfl
    rw [Nat.cast_zero, zero_mul] at high
    nlinarith
  · rw [onGrid?_eq, nearIs]
    dsimp only
    rw [if_pos rounds]

/-- The finest grid that is tried for the magnitudes of an exponent. -/
def finest (e : Int) : Int := (53 + e) * 30103 / 100000 - 19

/-- A power of ten is compared with a power of two by way of two powers that are near each other. -/
theorem ten_zpow_lt {a b f m n : Int} {p : Nat} (near : (10 : ℚ) ^ a ≤ 2 ^ b) (nonneg : 0 ≤ n)
    (exponents : a * n = f * p) (less : b * n < m * p) : (10 : ℚ) ^ f < 2 ^ m := by
  refine lt_of_pow_lt_pow_left₀ p (by positivity) ?_
  calc ((10 : ℚ) ^ f) ^ p = (10 ^ a) ^ n := by rw [← zpow_natCast, ← zpow_mul, ← zpow_mul, exponents]
    _ ≤ (2 ^ b) ^ n := zpow_le_zpow_left₀ nonneg (by positivity) near
    _ = 2 ^ (b * n) := (zpow_mul 2 b n).symm
    _ < 2 ^ (m * p) := zpow_lt_zpow_right₀ one_lt_two less
    _ = (2 ^ m) ^ p := by rw [zpow_mul, zpow_natCast]

/-- The step of the finest grid is less than half the unit, for every exponent. -/
theorem finest_fine {e : Int} (low : minExponent ≤ e) (high : e ≤ maxExponent) :
    (10 : ℚ) ^ finest e < 2 ^ (e - 1) := by
  have range : minExponent = -1074 ∧ maxExponent = 971 := ⟨rfl, rfl⟩
  have bound : finest e = (53 + e) * 30103 / 100000 - 19 := rfl
  rcases le_or_gt 0 (finest e) with up | down
  · -- `10 ^ 3` is a little less than `2 ^ 10`
    exact ten_zpow_lt (a := 3) (b := 10) (p := 3) (by norm_num) up (mul_comm _ _) (by omega)
  · -- and `10 ^ 28` a little more than `2 ^ 93`
    exact ten_zpow_lt (a := -28) (b := -93) (p := 28) (by norm_num) (n := -finest e) (by omega)
      (by push_cast; ring) (by omega)

/-- A magnitude has shortest digits, and what they stand for rounds to it. -/
theorem shortest_within {x : Magnitude} (canonical : Canonical x) (nonzero : x.1 ≠ 0) :
    (shortest x).1 ≠ 0 ∧ Within x ((shortest x).1 * 10 ^ (shortest x).2) := by
  rcases shortest_cases x with ⟨hasDigits, rounds⟩ | ⟨-, missed⟩
  · exact ⟨hasDigits, (roundsTo_iff x _ _).mp rounds⟩
  · -- the last of the grids is fine enough to have digits
    have length : x.1.log2 < 53 := (Nat.log2_lt nonzero).mpr canonical.short
    have last : topPower x - 21 ≤ finest x.2 := by
      unfold topPower finest
      omega
    have fine : (10 : ℚ) ^ (topPower x - 21) < 2 ^ (x.2 - 1) :=
      (zpow_le_zpow_right₀ (by norm_num) last).trans_lt (finest_fine canonical.low canonical.high)
    obtain ⟨d, hasDigits, found⟩ := onGrid?_fine nonzero fine
    have tried : topPower x - 21 ∈ grids x :=
      List.mem_map.mpr ⟨21, List.mem_range.mpr (by decide), rfl⟩
    have missing := missed _ tried
    rw [digitsOn?, found, Option.bind_some, if_neg hasDigits] at missing
    cases missing

end GroupStore.Binary64
