import Destructure.Proofs.Double.Rounding
import Mathlib.Data.Nat.Cast.Order.Field

/-!
# Destructure.Proofs.Double.Grids

A number is written on no finer grid than one on which it can be spelled: `le_scale_shortest`. So
what was read with at most one digit after the point is written with at most one
(`neg_one_le_scale_shortest`).

Proof shape: reading is monotone (`Double.IsNearest.mono`). So if any multiple of `10 ^ scale` reads
back as a number, then the one below the number or the one above it does, and these two are the ones
that `Decimal.near?` looks at. The search starts at the leading digit, which the grid in question
must not be above.
-/

namespace Destructure

open Double

/-! ### Reading keeps the order -/

namespace Double

theorem IsNearest.mono {x y : ℚ} {m k : Nat} (hm : IsNearest x m) (hk : IsNearest y k)
    (h : x ≤ y) : m ≤ k := by
  by_contra hlt
  have hsize := size_strictMono (not_le.1 hlt)
  have hx := hm.closest k hk.le_infinity
  have hy := hk.closest m hm.le_infinity
  -- `x` is not below the middle between the two magnitudes and `y` is not above it.
  have hmid : (size k + size m) / 2 ≤ x := by
    by_contra hlow
    have hnear : |x - size k| < size m - x := abs_lt.2 ⟨by linarith, by linarith⟩
    have hfar := neg_le_abs (x - size m)
    linarith
  have hmid' : y ≤ (size k + size m) / 2 := by
    by_contra hhigh
    have hnear : |y - size m| < y - size k := abs_lt.2 ⟨by linarith, by linarith⟩
    have hfar := le_abs_self (y - size k)
    linarith
  obtain rfl : x = y := by linarith
  exact hlt (hm.unique hk).le

theorem isNearest_size {m : Nat} (h : m ≤ infinity) : IsNearest (size m) m := by
  refine ⟨h, fun k _ => ?_, fun k _ hne he => ?_⟩
  · rw [sub_self, abs_zero]
    exact abs_nonneg _
  · rw [sub_self, abs_zero, abs_eq_zero, sub_eq_zero] at he
    exact absurd (size_strictMono.injective he).symm hne

end Double

namespace Decimal

/-- Reading keeps the order of decimals. -/
theorem magnitude_mono {d e : Decimal} (h : d.value ≤ e.value) : d.magnitude ≤ e.magnitude :=
  d.isNearest_magnitude.mono e.isNearest_magnitude h

theorem magnitude_mono_digits {k l : Nat} (scale : Int) (h : k ≤ l) :
    (⟨k, scale⟩ : Decimal).magnitude ≤ (⟨l, scale⟩ : Decimal).magnitude := by
  have hdigits : (k : ℚ) ≤ l := by exact_mod_cast h
  exact magnitude_mono (mul_le_mul_of_nonneg_right hdigits (zpow_nonneg (by norm_num) scale))

/-! ### The two points around a number -/

/-- Zeros at the end do not change the value. -/
theorem value_dropZeros (d : Decimal) : d.dropZeros.value = d.value := by
  fun_induction dropZeros d with
  | case1 d h ih =>
    have hdigits : ((d.digits / 10 : Nat) : ℚ) * 10 = d.digits := by
      exact_mod_cast (show d.digits / 10 * 10 = d.digits by omega)
    rw [ih, value, value, zpow_add_one₀ (by norm_num), mul_comm ((10 : ℚ) ^ d.scale), ← mul_assoc,
      hdigits]
  | case2 => rfl

theorem scale_le_dropZeros (d : Decimal) : d.scale ≤ d.dropZeros.scale := by
  fun_induction dropZeros d with
  | case1 d h ih => exact (Int.le_add_of_nonneg_right Int.one_nonneg).trans ih
  | case2 => exact le_refl _

theorem magnitude_dropZeros (d : Decimal) : d.dropZeros.magnitude = d.magnitude :=
  magnitude_eq_of_value_eq d.value_dropZeros

/-- How many points of the grid `10 ^ scale` are up to the number of magnitude `m`, without zero. -/
def pointsBelow (m : Nat) (scale : Int) : Nat :=
  unitsOf m * tenPow (-scale).toNat / (stepsPerOne * tenPow scale.toNat)

/-- The size of a double as a multiple of `10 ^ scale`, by a ratio of whole numbers. -/
theorem size_eq_ratio (m : Nat) (scale : Int) :
    size m = (unitsOf m * tenPow (-scale).toNat : Nat) / (stepsPerOne * tenPow scale.toNat : Nat) *
      (10 : ℚ) ^ scale := by
  have hone : tenPow 0 = 1 := rfl
  have hsteps : (stepsPerOne : ℚ) ≠ 0 := by exact_mod_cast stepsPerOne_pos.ne'
  unfold size
  obtain ⟨k, rfl | rfl⟩ := Int.eq_nat_or_neg scale
  · rw [Int.toNat_natCast, Int.toNat_neg_natCast, hone, zpow_natCast]
    push_cast [tenPow_cast]
    field_simp
  · rw [Int.neg_neg, Int.toNat_natCast, Int.toNat_neg_natCast, hone, zpow_neg, zpow_natCast]
    push_cast [tenPow_cast]
    field_simp

theorem value_pointsBelow_le (m : Nat) (scale : Int) :
    (⟨pointsBelow m scale, scale⟩ : Decimal).value ≤ size m ∧
      size m ≤ (⟨pointsBelow m scale + 1, scale⟩ : Decimal).value := by
  have hpow : (0 : ℚ) ≤ (10 : ℚ) ^ scale := zpow_nonneg (by norm_num) scale
  have hd : 0 < stepsPerOne * tenPow scale.toNat := Nat.mul_pos stepsPerOne_pos (tenPow_pos _)
  rw [size_eq_ratio m scale]
  unfold value pointsBelow
  dsimp only
  generalize unitsOf m * tenPow (-scale).toNat = n
  generalize stepsPerOne * tenPow scale.toNat = d at hd ⊢
  constructor
  · exact mul_le_mul_of_nonneg_right Nat.cast_div_le hpow
  · refine mul_le_mul_of_nonneg_right ?_ hpow
    rw [div_le_iff₀ (by exact_mod_cast hd), mul_comm]
    exact_mod_cast (Nat.lt_mul_div_succ n hd).le

theorem scale_le_of_near? {m : Nat} {scale : Int} {d : Decimal} (h : near? m scale = some d) :
    scale ≤ d.scale := by
  simp only [near?] at h
  split at h
  · obtain rfl := Option.some.inj h
    exact scale_le_dropZeros _
  · obtain ⟨-, h⟩ := Option.ite_none_right_eq_some.1 h
    obtain rfl := Option.some.inj h
    exact scale_le_dropZeros _

theorem isSome_near? {m : Nat} {scale : Int}
    (h : (⟨pointsBelow m scale, scale⟩ : Decimal).magnitude = m ∨
      (⟨pointsBelow m scale + 1, scale⟩ : Decimal).magnitude = m) : (near? m scale).isSome := by
  rw [← magnitude_dropZeros, ← magnitude_dropZeros ⟨pointsBelow m scale + 1, scale⟩] at h
  unfold pointsBelow at h
  simp only [near?]
  split
  · rfl
  · rename_i hnot
    split
    · rfl
    · rename_i hupper
      exact absurd ⟨h.resolve_right hupper, .inl hupper⟩ hnot

/-- If a point of the grid reads back as the number, then one of the two around the number does. -/
theorem isSome_near?_of_magnitude {m k : Nat} {scale : Int}
    (h : (⟨k, scale⟩ : Decimal).magnitude = m) : (near? m scale).isSome := by
  have hm : m ≤ infinity := h ▸ magnitudeOfDecimal_le _ _
  obtain ⟨hbelow, habove⟩ := value_pointsBelow_le m scale
  apply isSome_near?
  rcases Nat.lt_or_ge (pointsBelow m scale) k with hlt | hge
  · right
    exact le_antisymm ((magnitude_mono_digits scale hlt).trans h.le)
      ((isNearest_size hm).mono (isNearest_magnitude _) habove)
  · left
    exact le_antisymm ((isNearest_magnitude _).mono (isNearest_size hm) hbelow)
      (h.symm.le.trans (magnitude_mono_digits scale hge))

/-! ### The search -/

theorem le_scale_onGrids? {m : Nat} {scale top : Int} {count : Nat}
    (h : (near? m scale).isSome) (htop : scale ≤ top) (hcount : top < scale + count) :
    ∃ d, onGrids? m top count = some d ∧ scale ≤ d.scale := by
  induction count generalizing top with
  | zero => omega
  | succ count ih =>
    rw [onGrids?]
    cases hnear : near? m top with
    | some d => exact ⟨d, rfl, htop.trans (scale_le_of_near? hnear)⟩
    | none =>
      have hne : scale ≠ top := by
        rintro rfl
        simp [hnear] at h
      exact ih (by omega) (by omega)

/-- **A grid on which a number can be spelled is fine enough for its shortest digits.** -/
theorem le_scale_shortest {m k : Nat} {scale : Int} (h : (⟨k, scale⟩ : Decimal).magnitude = m)
    (hfinest : -(finest : Int) ≤ scale) (hleading : scale ≤ leading m) :
    scale ≤ (shortest m).scale := by
  have hcount : leading m < scale + (leading m + finest + 1).toNat := by omega
  obtain ⟨d, hd, hscale⟩ := le_scale_onGrids? (isSome_near?_of_magnitude h) hleading hcount
  have hcoarsest : coarsest? m (leading m) = some d := hd
  rw [shortest, hcoarsest]
  exact hscale

/-! ### Tenths -/

/-- Nothing but zero lies between zero and the double next to a tenth. -/
theorem neg_one_le_leading {m k : Nat} (h : (⟨k, -1⟩ : Decimal).magnitude = m) (hm : m ≠ 0) :
    -1 ≤ leading m := by
  have hk : 1 ≤ k := by
    refine Nat.one_le_iff_ne_zero.2 ?_
    rintro rfl
    exact hm h.symm
  have htenth : (⟨1, -1⟩ : Decimal).magnitude ≤ m := (magnitude_mono_digits (-1) hk).trans h.le
  have hunits : stepsPerOne ≤ unitsOf m * 10 := by
    refine le_trans ?_ (Nat.mul_le_mul_right 10 (unitsOf_strictMono.monotone htenth))
    decide +kernel
  unfold leading
  dsimp only
  split
  · have hlift : liftsTo stepsPerOne (unitsOf m * 10) = 0 := by
      rw [liftsTo, dif_neg (by omega)]
    have hle : liftsTo stepsPerOne (unitsOf m) ≤ 1 := by
      rw [liftsTo]
      split
      · rw [hlift]
      · exact Nat.zero_le _
    omega
  · omega

/-- A number that can be read with one digit after the point is written with at most one. -/
theorem neg_one_le_scale_shortest {m k : Nat} (h : (⟨k, -1⟩ : Decimal).magnitude = m)
    (hm : m ≠ 0) : -1 ≤ (shortest m).scale :=
  le_scale_shortest h (by decide) (neg_one_le_leading h hm)

end Decimal

end Destructure
