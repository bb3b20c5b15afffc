import Destructure.Double.Basic

/-!
# Destructure.Double.Decimal

Reading decimals: the double nearest to `digits · 10 ^ scale`, where a tie goes to the even
neighbour and what is too large becomes infinity.

The bits of a magnitude are chosen so that stepping over the end of an exponent's range is a carry.
Hence `k * exponentWeight + s` is the magnitude of the significand `s` at exponent `k`, also when
rounding has just lifted `s` to twice `exponentWeight`.
-/

namespace Destructure.Double

/-- The whole number nearest to `n / d`, where a tie goes to the even one. -/
def roundDiv (n d : Nat) : Nat :=
  let q := n / d
  let r := n % d
  if 2 * r < d ∨ (2 * r = d ∧ q % 2 = 0) then q else q + 1

/-- The magnitude nearest to `n / d` steps of the smallest double, at most infinity. -/
def magnitudeOfUnits (n d : Nat) : Nat :=
  -- A double keeps 53 bits, and the exponent counts how many more the quotient has.
  let k := (n / d).log2 - 52
  min (k * exponentWeight + roundDiv n (d <<< k)) infinity

/-- The magnitude nearest to `n / d`. -/
def magnitudeOfRatio (n d : Nat) : Nat := magnitudeOfUnits (n * stepsPerOne) d

/-- A power of ten. -/
def tenPow (k : Nat) : Nat := Nat.pow 10 k

/-- The magnitude nearest to `digits · 10 ^ scale`. Scales above 400 leave nothing to compute. -/
def magnitudeOfDecimal (digits : Nat) (scale : Int) : Nat :=
  if digits = 0 then 0
  else if 400 < scale then infinity
  else magnitudeOfRatio (digits * tenPow scale.toNat) (tenPow (-scale).toNat)

/-- The double nearest to `digits · 10 ^ scale`. -/
def ofDecimal (digits : Nat) (scale : Int) : Double :=
  ofMagnitude false (magnitudeOfDecimal digits scale)

/-- The double nearest to a natural number. -/
def ofNat (n : Nat) : Double := ofMagnitude false (magnitudeOfRatio n 1)

/-- The double nearest to an integer. Zero has a clear sign. -/
def ofInt (i : Int) : Double := ofMagnitude (i < 0) (magnitudeOfRatio i.natAbs 1)

theorem magnitudeOfUnits_le (n d : Nat) : magnitudeOfUnits n d ≤ infinity := Nat.min_le_right _ _

/-- A whole number may be too large for a double, but it is one. -/
theorem isNaN_ofNat (n : Nat) : (ofNat n).isNaN = false := by
  have hle := magnitudeOfUnits_le (n * stepsPerOne) 1
  have hmag : (ofNat n).magnitude = magnitudeOfRatio n 1 :=
    magnitude_ofMagnitude false (Nat.lt_of_le_of_lt hle (by decide))
  rw [isNaN, hmag, decide_eq_false_iff_not]
  exact Nat.not_lt.2 hle

theorem magnitudeOfDecimal_le (digits : Nat) (scale : Int) :
    magnitudeOfDecimal digits scale ≤ infinity := by
  unfold magnitudeOfDecimal
  split
  · exact Nat.zero_le _
  · split
    · exact Nat.le_refl _
    · exact magnitudeOfUnits_le _ _

theorem roundDiv_one (n : Nat) : roundDiv n 1 = n := by
  simp [roundDiv, Nat.mod_one]

theorem roundDiv_mul_right (q d : Nat) (h : 0 < d) : roundDiv (q * d) d = q := by
  simp [roundDiv, Nat.mul_div_cancel _ h, h]

theorem roundDiv_mul_mul_right (n d c : Nat) (h : 0 < c) :
    roundDiv (n * c) (d * c) = roundDiv n d := by
  have h₁ : 2 * (n % d * c) < d * c ↔ 2 * (n % d) < d := by
    rw [← Nat.mul_assoc, Nat.mul_lt_mul_right h]
  have h₂ : 2 * (n % d * c) = d * c ↔ 2 * (n % d) = d := by
    rw [← Nat.mul_assoc, Nat.mul_left_inj (Nat.ne_of_gt h)]
  simp only [roundDiv, Nat.mul_div_mul_right _ _ h, Nat.mul_mod_mul_right, h₁, h₂]

/-- Only the quotient counts. -/
theorem magnitudeOfUnits_mul_mul_right (n d c : Nat) (h : 0 < c) :
    magnitudeOfUnits (n * c) (d * c) = magnitudeOfUnits n d := by
  simp only [magnitudeOfUnits, Nat.mul_div_mul_right _ _ h, Nat.shiftLeft_eq]
  rw [Nat.mul_right_comm d c, roundDiv_mul_mul_right _ _ _ h]

/-- A finite number's own size is rounded to that number. -/
theorem magnitudeOfUnits_unitsOf {m : Nat} (h : m < infinity) :
    magnitudeOfUnits (unitsOf m) 1 = m := by
  simp only [magnitudeOfUnits, Nat.div_one, Nat.shiftLeft_eq, Nat.one_mul]
  by_cases hm : m < exponentWeight
  · have hu : unitsOf m = m := if_pos hm
    have hk : m.log2 - 52 = 0 := by
      by_cases h0 : m = 0
      · rw [h0]
        rfl
      · have := (Nat.log2_lt (k := 53) h0).2 (Nat.lt_trans hm (by decide))
        omega
    rw [hu, hk, Nat.zero_mul, Nat.zero_add, Nat.pow_zero, roundDiv_one,
      Nat.min_eq_left (Nat.le_of_lt h)]
  · have hu : unitsOf m =
        (exponentWeight + m % exponentWeight) * 2 ^ (m / exponentWeight - 1) := by
      rw [unitsOf, if_neg hm, Nat.shiftLeft_eq]
    have hs : exponentWeight + m % exponentWeight < 2 ^ 53 := by
      simp only [exponentWeight]
      omega
    have hlog : ((exponentWeight + m % exponentWeight) * 2 ^ (m / exponentWeight - 1)).log2 =
        52 + (m / exponentWeight - 1) := by
      have hp := Nat.two_pow_pos (m / exponentWeight - 1)
      have hw : 0 < exponentWeight := by decide
      rw [Nat.log2_eq_iff (Nat.ne_of_gt (Nat.mul_pos (by omega) hp)),
        show 52 + (m / exponentWeight - 1) + 1 = 53 + (m / exponentWeight - 1) by omega,
        Nat.pow_add 2 52, Nat.pow_add 2 53]
      exact ⟨Nat.mul_le_mul_right _ (Nat.le_add_right exponentWeight _),
        (Nat.mul_lt_mul_right hp).2 hs⟩
    have hm' : (m / exponentWeight - 1) * exponentWeight + (exponentWeight + m % exponentWeight)
        = m := by
      simp only [exponentWeight] at *
      omega
    rw [hu, hlog, Nat.add_sub_cancel_left, roundDiv_mul_right _ _ (Nat.two_pow_pos _), hm',
      Nat.min_eq_left (Nat.le_of_lt h)]

end Destructure.Double
