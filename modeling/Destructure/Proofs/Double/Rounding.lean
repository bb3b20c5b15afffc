import Destructure.Double.Shortest
import Mathlib.Algebra.Order.Field.Rat
import Mathlib.Algebra.Order.Group.Unbundled.Abs
import Mathlib.Algebra.Order.Archimedean.Basic
import Mathlib.Tactic.Linarith
import Mathlib.Tactic.Ring
import Mathlib.Tactic.FieldSimp
import Mathlib.Tactic.Positivity

/-!
# Destructure.Proofs.Double.Rounding

Reading a decimal rounds correctly: `Decimal.magnitude` is the magnitude nearest to the decimal's
value, and of two equally near ones it is the even one.

Design points:

* `Decimal.value` and `Double.size` are rational numbers, so that "nearest" needs no arithmetic of
  doubles. Infinity has the size that would come next after the finite ones, which is where IEEE 754
  lets rounding overflow.
* `Double.IsNearest` determines its magnitude (`IsNearest.unique`). So two decimals of one value are
  read as one double, however they are written.

## Proof shape

Everything happens in steps of the smallest double. A magnitude is a significand on one of the grids
`2 ^ k` (`exists_significand`), and the reader chooses the grid on which its quotient has 53 bits
(`quotient_bounds`). On that grid the rounded quotient is at most half a step away
(`abs_sub_roundDiv_le`), and no other point of it is as near (`closest_of_abs_sub_le_half`). Coarser
grids are part of the chosen one, and finer ones end below it: `unboundedMagnitude_nearest`.
-/

namespace Destructure

/-- The number that a decimal stands for. -/
def Decimal.value (d : Decimal) : ℚ := d.digits * (10 : ℚ) ^ d.scale

namespace Double

/-- The number of magnitude `m`. For infinity it is the first power of two that is too large. -/
def size (m : Nat) : ℚ := unitsOf m / stepsPerOne

/-- `m` is the magnitude nearest to `x`, infinity included; of two that are equally near, the even
one. -/
structure IsNearest (x : ℚ) (m : Nat) : Prop where
  le_infinity : m ≤ infinity
  closest : ∀ k ≤ infinity, |x - size m| ≤ |x - size k|
  even_of_tie : ∀ k ≤ infinity, k ≠ m → |x - size k| = |x - size m| → m % 2 = 0

/-! ### Magnitudes as points on grids -/

/-- The size of a significand on the grid `2 ^ k`. The significand may have reached twice its least
value, which is the first one of the next grid. -/
theorem unitsOf_significand {k s : Nat} (hk : k = 0 ∨ exponentWeight ≤ s)
    (hs : s ≤ 2 * exponentWeight) : unitsOf (k * exponentWeight + s) = s * 2 ^ k := by
  unfold unitsOf
  by_cases hlt : k * exponentWeight + s < exponentWeight
  · have h0 : k = 0 := by simp only [exponentWeight] at *; omega
    rw [if_pos hlt, h0]
    simp
  · rw [if_neg hlt, Nat.shiftLeft_eq]
    rcases Nat.lt_or_eq_of_le hs with hs | hs
    · have hdiv : (k * exponentWeight + s) / exponentWeight - 1 = k := by
        simp only [exponentWeight] at *; omega
      have hmod : exponentWeight + (k * exponentWeight + s) % exponentWeight = s := by
        simp only [exponentWeight] at *; omega
      rw [hdiv, hmod]
    · have hdiv : (k * exponentWeight + s) / exponentWeight - 1 = k + 1 := by
        simp only [exponentWeight] at *; omega
      have hmod : exponentWeight + (k * exponentWeight + s) % exponentWeight = exponentWeight := by
        simp only [exponentWeight] at *; omega
      rw [hdiv, hmod, hs, Nat.pow_succ]
      ring

/-- Every magnitude is a significand of 53 bits on a grid, or a smaller one on the finest. -/
theorem exists_significand (m : Nat) :
    ∃ k s, m = k * exponentWeight + s ∧ (k = 0 ∨ exponentWeight ≤ s) ∧ s < 2 * exponentWeight := by
  by_cases h : m < exponentWeight
  · exact ⟨0, m, by omega, Or.inl rfl, by omega⟩
  · refine ⟨m / exponentWeight - 1, exponentWeight + m % exponentWeight, ?_, Or.inr ?_, ?_⟩ <;>
      simp only [exponentWeight] at * <;> omega

theorem unitsOf_strictMono : StrictMono unitsOf := by
  refine strictMono_nat_of_lt_succ fun m => ?_
  obtain ⟨k, s, rfl, hk, hs⟩ := exists_significand m
  rw [Nat.add_assoc, unitsOf_significand hk hs.le, unitsOf_significand (by omega) (by omega)]
  exact Nat.mul_lt_mul_of_pos_right (Nat.lt_succ_self s) (Nat.two_pow_pos k)

theorem size_strictMono : StrictMono size := fun m k h => by
  have hpos : (0 : ℚ) < stepsPerOne := by exact_mod_cast stepsPerOne_pos
  exact div_lt_div_of_pos_right (by exact_mod_cast unitsOf_strictMono h) hpos

/-! ### Rounding on one grid -/

/-- Rounding moves a quotient by at most one half, and by one half only to an even number. -/
theorem abs_sub_roundDiv_le (n : Nat) {d : Nat} (hd : 0 < d) :
    |(n / d : ℚ) - roundDiv n d| ≤ 1 / 2 ∧
      (|(n / d : ℚ) - roundDiv n d| = 1 / 2 → roundDiv n d % 2 = 0) := by
  have hd' : (0 : ℚ) < d := by exact_mod_cast hd
  have hx : (n / d : ℚ) = (n / d : Nat) + (n % d : Nat) / d := by
    rw [div_eq_iff hd'.ne', add_mul, div_mul_cancel₀ _ hd'.ne']
    exact_mod_cast (Nat.div_add_mod' n d).symm
  have hnonneg : (0 : ℚ) ≤ (n % d : Nat) / d := by positivity
  have hlt : ((n % d : Nat) : ℚ) / d < 1 := by
    rw [div_lt_one hd']
    exact_mod_cast Nat.mod_lt n hd
  have hhalf : 2 * (n % d) < d ↔ ((n % d : Nat) : ℚ) / d < 1 / 2 := by
    rw [div_lt_iff₀ hd', ← Nat.cast_lt (α := ℚ)]
    push_cast
    constructor <;> intro h <;> linarith
  have htie : 2 * (n % d) = d ↔ ((n % d : Nat) : ℚ) / d = 1 / 2 := by
    rw [div_eq_iff hd'.ne', ← Nat.cast_inj (R := ℚ)]
    push_cast
    constructor <;> intro h <;> linarith
  unfold roundDiv
  dsimp only
  rw [hx]
  split
  · rename_i h
    rw [hhalf, htie] at h
    generalize ((n % d : Nat) : ℚ) / d = f at *
    rw [add_sub_cancel_left, abs_of_nonneg hnonneg]
    rcases h with h | ⟨h, heven⟩
    · exact ⟨h.le, fun he => absurd he h.ne⟩
    · exact ⟨h.le, fun _ => heven⟩
  · rename_i h
    rw [hhalf, htie] at h
    generalize ((n % d : Nat) : ℚ) / d = f at *
    push_cast
    rw [add_sub_add_left_eq_sub, abs_sub_comm, abs_of_nonneg (by linarith)]
    have hge : 1 / 2 ≤ f := not_lt.1 fun hf => h (Or.inl hf)
    refine ⟨by linarith, fun he => ?_⟩
    have hf : f = 1 / 2 := by linarith
    have : ¬ n / d % 2 = 0 := fun heven => h (Or.inr ⟨hf, heven⟩)
    omega

/-- A whole number that is not farther from `x` than one half is the nearest one. -/
theorem closest_of_abs_sub_le_half {x : ℚ} {r : Nat} (h : |x - r| ≤ 1 / 2) {j : Nat} (hj : j ≠ r) :
    |x - r| ≤ |x - j| ∧ (|x - j| = |x - r| → |x - r| = 1 / 2) := by
  have hone : (1 : ℚ) ≤ |(r : ℚ) - j| := by
    have : (1 : ℤ) ≤ |(r : ℤ) - j| := Int.one_le_abs (by omega)
    exact_mod_cast this
  have htri : |(r : ℚ) - j| ≤ |x - r| + |x - j| := by
    rw [abs_sub_comm x r]
    exact abs_sub_le (r : ℚ) x j
  constructor
  · linarith
  · intro he
    linarith

/-! ### Choosing the grid -/

/-- `magnitudeOfUnits` before it is cut off at infinity. -/
def unboundedMagnitude (n d : Nat) : Nat :=
  ((n / d).log2 - 52) * exponentWeight + roundDiv n (d <<< ((n / d).log2 - 52))

/-- Measured in the grid that its leading bit chooses, a quotient has 53 bits before the point, or
fewer on the finest grid. -/
theorem quotient_bounds (n : Nat) {d : Nat} (hd : 0 < d) :
    ((n / d).log2 - 52 = 0 ∨ (exponentWeight : ℚ) ≤ n / d / 2 ^ ((n / d).log2 - 52)) ∧
      (n / d / 2 ^ ((n / d).log2 - 52) : ℚ) < 2 * exponentWeight := by
  have hd' : (0 : ℚ) < d := by exact_mod_cast hd
  have hweight : exponentWeight = 2 ^ 52 := rfl
  generalize hk : (n / d).log2 - 52 = k
  have hp : (0 : ℚ) < 2 ^ k := by positivity
  constructor
  · by_cases h0 : k = 0
    · exact Or.inl h0
    · right
      have hne : n / d ≠ 0 := by
        intro h
        rw [h] at hk
        exact h0 (hk.symm.trans rfl)
      have hle : exponentWeight * 2 ^ k ≤ n / d := by
        rw [hweight, ← Nat.pow_add, show 52 + k = (n / d).log2 by omega]
        exact Nat.log2_self_le hne
      rw [Nat.le_div_iff_mul_le hd] at hle
      rw [le_div_iff₀ hp, le_div_iff₀ hd']
      exact_mod_cast hle
  · have hlt : n / d < 2 * exponentWeight * 2 ^ k := by
      refine Nat.lt_of_lt_of_le Nat.lt_log2_self ?_
      rw [hweight, ← Nat.pow_succ', ← Nat.pow_add]
      exact Nat.pow_le_pow_right (by decide) (by omega)
    rw [Nat.div_lt_iff_lt_mul hd] at hlt
    rw [div_lt_iff₀ hp, div_lt_iff₀ hd']
    exact_mod_cast hlt

/-- Among all magnitudes, with no end of the exponents, the rounded one is nearest. -/
theorem unboundedMagnitude_nearest (n : Nat) {d j : Nat} (hd : 0 < d)
    (hj : j ≠ unboundedMagnitude n d) :
    |(n / d : ℚ) - unitsOf (unboundedMagnitude n d)| ≤ |(n / d : ℚ) - unitsOf j| ∧
      (|(n / d : ℚ) - unitsOf j| = |(n / d : ℚ) - unitsOf (unboundedMagnitude n d)| →
        unboundedMagnitude n d % 2 = 0) := by
  obtain ⟨hlow, hhigh⟩ := quotient_bounds n hd
  have hj' := unitsOf_strictMono.injective.ne hj
  unfold unboundedMagnitude at hj' ⊢
  rw [Nat.shiftLeft_eq] at hj' ⊢
  generalize (n / d).log2 - 52 = k at *
  have hp : (0 : ℚ) < 2 ^ k := by positivity
  obtain ⟨hhalf, heven⟩ := abs_sub_roundDiv_le n (d := d * 2 ^ k) (by positivity)
  rw [show (n / (d * 2 ^ k : Nat) : ℚ) = n / d / 2 ^ k by push_cast; rw [div_div]] at hhalf heven
  generalize roundDiv n (d * 2 ^ k) = r at *
  generalize (n / d : ℚ) = y at *
  have hbounds := abs_le.1 hhalf
  have hrlow : k = 0 ∨ exponentWeight ≤ r := by
    refine hlow.imp_right fun h => ?_
    have : (exponentWeight : ℚ) < r + 1 := by linarith
    exact Nat.lt_succ_iff.1 (by exact_mod_cast this)
  have hrhigh : r ≤ 2 * exponentWeight := by
    have : (r : ℚ) < 2 * exponentWeight + 1 := by linarith
    exact Nat.lt_succ_iff.1 (by exact_mod_cast this)
  have hdist (i : Nat) : |y - (i * 2 ^ k : Nat)| = |y / 2 ^ k - i| * 2 ^ k := by
    rw [← abs_of_pos hp, ← abs_mul, abs_of_pos hp, sub_mul, div_mul_cancel₀ _ hp.ne']
    push_cast
    rfl
  have hfar {i : Nat} (hi : i ≠ r) : |y / 2 ^ k - r| * 2 ^ k ≤ |y / 2 ^ k - i| * 2 ^ k :=
    mul_le_mul_of_nonneg_right (closest_of_abs_sub_le_half hhalf hi).1 hp.le
  rw [unitsOf_significand hrlow hrhigh] at hj' ⊢
  rw [hdist]
  obtain ⟨k', s', rfl, hk', hs'⟩ := exists_significand j
  rw [unitsOf_significand hk' hs'.le] at hj' ⊢
  rcases Nat.lt_or_ge k' k with hlt | hge
  · -- A finer grid ends below the point, and the first point of this grid lies in between.
    have hy : (exponentWeight * 2 ^ k : Nat) ≤ y := by
      have := hlow.resolve_left (by omega)
      rw [le_div_iff₀ hp] at this
      exact_mod_cast this
    have hbelow : s' * 2 ^ k' < exponentWeight * 2 ^ k := by
      calc s' * 2 ^ k' < 2 * exponentWeight * 2 ^ k' :=
            Nat.mul_lt_mul_of_pos_right hs' (Nat.two_pow_pos k')
        _ = exponentWeight * 2 ^ (k' + 1) := by ring
        _ ≤ exponentWeight * 2 ^ k :=
            Nat.mul_le_mul_left _ (Nat.pow_le_pow_right (by decide) hlt)
    have hbelow' : ((s' * 2 ^ k' : Nat) : ℚ) < (exponentWeight * 2 ^ k : Nat) := by
      exact_mod_cast hbelow
    have hstrict : |y / 2 ^ k - r| * 2 ^ k < |y - (s' * 2 ^ k' : Nat)| := by
      refine lt_of_le_of_lt ?_ (show y - (exponentWeight * 2 ^ k : Nat) < _ from ?_)
      · rw [← abs_of_nonneg (sub_nonneg.2 hy), hdist]
        by_cases h : exponentWeight = r
        · rw [h]
        · exact hfar h
      · rw [abs_of_nonneg (by linarith)]
        linarith
    exact ⟨hstrict.le, fun he => absurd he hstrict.ne'⟩
  · -- A coarser grid is part of this one.
    obtain ⟨e, rfl⟩ := Nat.exists_eq_add_of_le hge
    rw [Nat.pow_add, Nat.mul_comm (2 ^ k), ← Nat.mul_assoc] at hj' ⊢
    have hi : s' * 2 ^ e ≠ r := fun h => hj' (by rw [h])
    rw [hdist]
    refine ⟨hfar hi, fun he => ?_⟩
    have htie := (closest_of_abs_sub_le_half hhalf hi).2 (mul_right_cancel₀ hp.ne' he)
    have hr := heven htie
    simp only [exponentWeight]
    omega


/-- Rounding to at most infinity is nearest among the magnitudes up to infinity. -/
theorem magnitudeOfUnits_nearest (n : Nat) {d j : Nat} (hd : 0 < d) (hj : j ≤ infinity)
    (hne : j ≠ magnitudeOfUnits n d) :
    |(n / d : ℚ) - unitsOf (magnitudeOfUnits n d)| ≤ |(n / d : ℚ) - unitsOf j| ∧
      (|(n / d : ℚ) - unitsOf j| = |(n / d : ℚ) - unitsOf (magnitudeOfUnits n d)| →
        magnitudeOfUnits n d % 2 = 0) := by
  have hmin : magnitudeOfUnits n d = min (unboundedMagnitude n d) infinity := rfl
  rcases Nat.le_total (unboundedMagnitude n d) infinity with hle | hge
  · rw [hmin, Nat.min_eq_left hle] at hne ⊢
    exact unboundedMagnitude_nearest n hd hne
  · rw [hmin, Nat.min_eq_right hge] at hne ⊢
    rcases Nat.eq_or_lt_of_le hge with heq | hlt
    · rw [heq] at hne ⊢
      exact unboundedMagnitude_nearest n hd hne
    · -- What is nearest lies beyond infinity, so the quotient itself does, and all else below.
      have hinf : ((unitsOf infinity : Nat) : ℚ) < unitsOf (unboundedMagnitude n d) := by
        exact_mod_cast unitsOf_strictMono hlt
      have hjlt : ((unitsOf j : Nat) : ℚ) < unitsOf infinity := by
        exact_mod_cast unitsOf_strictMono (Nat.lt_of_le_of_ne hj hne)
      have hclose := (unboundedMagnitude_nearest n hd hlt.ne).1
      generalize (n / d : ℚ) = y at *
      have hy : ((unitsOf infinity : Nat) : ℚ) < y := by
        by_contra hy
        rw [abs_of_nonpos (by linarith), abs_of_nonpos (by linarith)] at hclose
        linarith
      rw [abs_of_pos (by linarith), abs_of_pos (by linarith)]
      exact ⟨by linarith, fun he => by linarith⟩

/-- Distances may be measured in steps of the smallest double. -/
theorem isNearest_of_units {x : ℚ} {m : Nat} (hm : m ≤ infinity)
    (h : ∀ j ≤ infinity, j ≠ m →
      |x * stepsPerOne - unitsOf m| ≤ |x * stepsPerOne - unitsOf j| ∧
        (|x * stepsPerOne - unitsOf j| = |x * stepsPerOne - unitsOf m| → m % 2 = 0)) :
    IsNearest x m := by
  have hpos : (0 : ℚ) < stepsPerOne := by exact_mod_cast stepsPerOne_pos
  have hdist (j : Nat) : |x * stepsPerOne - unitsOf j| = |x - size j| * stepsPerOne := by
    rw [← abs_of_pos hpos, ← abs_mul, abs_of_pos hpos, sub_mul, size, div_mul_cancel₀ _ hpos.ne']
  simp only [hdist] at h
  refine ⟨hm, fun j hj => ?_, fun j hj hne he => (h j hj hne).2 (by rw [he])⟩
  by_cases hne : j = m
  · rw [hne]
  · exact le_of_mul_le_mul_right (h j hj hne).1 hpos

/-! ### What is nearest -/

/-- There is only one nearest magnitude. -/
theorem IsNearest.unique {x : ℚ} {m k : Nat} (hm : IsNearest x m) (hk : IsNearest x k) :
    m = k := by
  by_contra hne
  wlog hlt : m < k generalizing m k
  · exact this hk hm (Ne.symm hne) (by omega)
  have htie := le_antisymm (hm.closest k hk.le_infinity) (hk.closest m hm.le_infinity)
  have hme := hm.even_of_tie k hk.le_infinity (Ne.symm hne) htie.symm
  have hke := hk.even_of_tie m hm.le_infinity hne htie
  -- Between two even magnitudes lies an odd one, and that would be nearer than both.
  have hleft := size_strictMono (Nat.lt_succ_self m)
  have hright := size_strictMono (show m + 1 < k by omega)
  have hmid := hm.closest (m + 1) (Nat.le_trans (show m + 1 ≤ k by omega) hk.le_infinity)
  have hx : x - size m = -(x - size k) := by
    refine (abs_eq_abs.1 htie).resolve_left fun h => ?_
    linarith
  rw [abs_of_nonneg (show 0 ≤ x - size m by linarith)] at hmid
  exact absurd (abs_lt.2 ⟨by linarith, by linarith⟩ : |x - size (m + 1)| < x - size m) hmid.not_gt

/-! ### Decimals -/

theorem tenPow_cast (k : Nat) : ((tenPow k : Nat) : ℚ) = (10 : ℚ) ^ k := by
  show ((10 ^ k : Nat) : ℚ) = _
  push_cast
  rfl

theorem tenPow_pos (k : Nat) : 0 < tenPow k := Nat.pow_pos (by decide)

/-- Rounding overflows at the power of two after the greatest finite number. -/
theorem size_infinity : size infinity = (2 : ℚ) ^ 1024 := by
  have hexp : 52 + 2046 = 1024 + finest := rfl
  have hunits : unitsOf infinity = 2 ^ 1024 * stepsPerOne := by
    rw [show infinity = 2046 * exponentWeight + exponentWeight by decide,
      unitsOf_significand (Or.inr (Nat.le_refl _)) (by decide), stepsPerOne, Nat.one_shiftLeft,
      ← Nat.pow_add, show exponentWeight = 2 ^ 52 by rfl, ← Nat.pow_add, hexp]
  have hpos : (stepsPerOne : ℚ) ≠ 0 := by exact_mod_cast stepsPerOne_pos.ne'
  rw [size, hunits, Nat.cast_mul, mul_div_assoc, div_self hpos, mul_one, Nat.cast_pow,
    Nat.cast_ofNat]

end Double

open Double

/-- The ratio, in steps of the smallest double, that is rounded when a decimal is read. -/
theorem Decimal.value_eq_ratio (d : Decimal) :
    d.value * stepsPerOne =
      ((d.digits * tenPow d.scale.toNat * stepsPerOne : Nat) : ℚ) /
        (tenPow (-d.scale).toNat : Nat) := by
  obtain ⟨n, scale⟩ := d
  have hone : tenPow 0 = 1 := rfl
  unfold Decimal.value
  dsimp only
  obtain ⟨k, rfl | rfl⟩ := Int.eq_nat_or_neg scale
  · rw [Int.toNat_natCast, Int.toNat_neg_natCast, hone, zpow_natCast]
    push_cast [tenPow_cast]
    rw [div_one]
  · rw [Int.neg_neg, Int.toNat_natCast, Int.toNat_neg_natCast, hone, zpow_neg, zpow_natCast]
    push_cast [tenPow_cast]
    field_simp

/-- A decimal is read as the magnitude nearest to it. -/
theorem Decimal.isNearest_magnitude (d : Decimal) : IsNearest d.value d.magnitude := by
  unfold Decimal.magnitude magnitudeOfDecimal
  by_cases h0 : d.digits = 0
  · rw [if_pos h0]
    have hx : d.value = 0 := by simp [Decimal.value, h0]
    have hs : size 0 = 0 := by simp [size, unitsOf, exponentWeight]
    refine ⟨Nat.zero_le _, fun j _ => ?_, fun _ _ _ _ => rfl⟩
    rw [hx, hs, sub_zero, abs_zero]
    exact abs_nonneg _
  · rw [if_neg h0]
    by_cases h400 : 400 < d.scale
    · rw [if_pos h400]
      have hx : size infinity < d.value := by
        have hdigits : (1 : ℚ) ≤ d.digits := by exact_mod_cast Nat.one_le_iff_ne_zero.2 h0
        rw [size_infinity]
        calc (2 : ℚ) ^ 1024 < 2 ^ (3 * 342) := pow_lt_pow_right₀ (by norm_num) (by norm_num)
          _ = 8 ^ 342 := by rw [pow_mul]; norm_num
          _ ≤ 10 ^ 342 := pow_le_pow_left₀ (by norm_num) (by norm_num) _
          _ = 10 ^ (342 : ℤ) := (zpow_natCast 10 342).symm
          _ ≤ 10 ^ d.scale := zpow_le_zpow_right₀ (by norm_num) (by omega)
          _ ≤ d.value := le_mul_of_one_le_left (zpow_nonneg (by norm_num) _) hdigits
      refine ⟨Nat.le_refl _, fun j hj => ?_, fun _ _ _ _ => rfl⟩
      have hj := size_strictMono.monotone hj
      rw [abs_of_pos (by linarith), abs_of_pos (by linarith)]
      linarith
    · rw [if_neg h400]
      refine isNearest_of_units (magnitudeOfUnits_le _ _) fun j hj hne => ?_
      rw [Decimal.value_eq_ratio]
      exact magnitudeOfUnits_nearest _ (tenPow_pos _) hj hne

/-- What a decimal is read as depends on its value only. -/
theorem Decimal.magnitude_eq_of_value_eq {d e : Decimal} (h : d.value = e.value) :
    d.magnitude = e.magnitude :=
  IsNearest.unique d.isNearest_magnitude (h ▸ e.isNearest_magnitude)

end Destructure
