import Destructure.Double.Decimal

/-!
# Destructure.Double.Shortest

Writing doubles: the fewest decimal digits that read back as the same number, always in positional
notation.

Design points:

* A grid is the multiples of a power of ten. If any of its points reads back as the number, then so
  does one of the two points around the number, so `Decimal.near?` looks at these two only.
* Of two points that read back the nearer one is taken, and a number halfway between them goes up.
* Grids are tried from coarse to fine, down to the one on which every double lies. So no count of
  how many digits suffice is needed, neither for the search to end nor for `shortest_reads_back`.
* `NumberNames` holds what a format decides: the names of what no digits can write.
-/

namespace Destructure

/-- The decimal `digits · 10 ^ scale`. -/
structure Decimal where
  digits : Nat
  scale : Int
  deriving DecidableEq, Repr

namespace Decimal

/-- The same decimal without final zeros in its digits. -/
def dropZeros (d : Decimal) : Decimal :=
  if h : d.digits ≠ 0 ∧ d.digits % 10 = 0 then
    dropZeros ⟨d.digits / 10, d.scale + 1⟩
  else d
termination_by d.digits
decreasing_by omega

/-- The magnitude of the double that the decimal is read as. -/
def magnitude (d : Decimal) : Nat := Double.magnitudeOfDecimal d.digits d.scale

/-- Of the two multiples of `10 ^ scale` around the number of magnitude `m`, the one that reads back
as it: the nearer one if both do, and the upper one if they are equally near. -/
def near? (m : Nat) (scale : Int) : Option Decimal :=
  let n := Double.unitsOf m * Double.tenPow (-scale).toNat
  let d := Double.stepsPerOne * Double.tenPow scale.toNat
  let lower := dropZeros ⟨n / d, scale⟩
  let upper := dropZeros ⟨n / d + 1, scale⟩
  if lower.magnitude = m ∧ (upper.magnitude ≠ m ∨ 2 * (n % d) < d) then some lower
  else if upper.magnitude = m then some upper
  else none

/-- How often `n`, which is not zero, is multiplied by ten until it is no longer below `one`. -/
def liftsTo (one n : Nat) : Nat :=
  if _h : 0 < n ∧ n < one then liftsTo one (n * 10) + 1 else 0
termination_by one - n
decreasing_by omega

/-- The power of ten of the leading digit of the number of magnitude `m`, which is not zero. -/
def leading (m : Nat) : Int :=
  let n := Double.unitsOf m
  if n < Double.stepsPerOne then -liftsTo Double.stepsPerOne n
  else ((Nat.toDigits 10 (n / Double.stepsPerOne)).length : Int) - 1

/-- The number of magnitude `m` with every digit it has. -/
def inFull (m : Nat) : Decimal := ⟨Double.unitsOf m * Nat.pow 5 Double.finest, -Double.finest⟩

/-- What the first grid with a hit yields, of `count` grids from `scale` on to finer ones. -/
def onGrids? (m : Nat) (scale : Int) : Nat → Option Decimal
  | 0 => none
  | count + 1 =>
    -- Finer grids are not even looked at after a hit.
    match near? m scale with
    | some d => some d
    | none => onGrids? m (scale - 1) count

/-- The coarsest hit from the grid of the leading digit on, down to the finest grid there is. -/
def coarsest? (m : Nat) (top : Int) : Option Decimal :=
  onGrids? m top (top + Double.finest + 1).toNat

/-- The fewest digits that read back as the number of magnitude `m`. -/
def shortest (m : Nat) : Decimal := (coarsest? m (leading m)).getD (inFull m)

/-- Digits with a decimal point where one is needed, and never an exponent. -/
def chars (d : Decimal) : List Char :=
  if 0 ≤ d.scale then Nat.toDigits 10 (d.digits * Double.tenPow d.scale.toNat)
  else
    let places := (-d.scale).toNat
    let fraction := Nat.toDigits 10 (d.digits % Double.tenPow places)
    Nat.toDigits 10 (d.digits / Double.tenPow places) ++
      '.' :: (List.replicate (places - fraction.length) '0' ++ fraction)

theorem near?_reads_back {m : Nat} {scale : Int} {d : Decimal} (h : near? m scale = some d) :
    d.magnitude = m := by
  simp only [near?] at h
  split at h
  · simp_all
  · split at h <;> simp_all

theorem inFull_reads_back {m : Nat} (h : m < Double.infinity) : (inFull m).magnitude = m := by
  have hpos : ∀ k, 0 < Nat.pow 5 k := fun k => Nat.pow_pos (by decide)
  have hten : ∀ k, Double.tenPow k = Nat.pow 5 k * 2 ^ k := fun k => Nat.mul_pow 5 2 k
  have h₅ := hpos Double.finest
  have h₁₀ : Double.tenPow Double.finest = 1 * (Nat.pow 5 Double.finest * Double.stepsPerOne) := by
    rw [Double.stepsPerOne, Nat.one_shiftLeft, Nat.one_mul, hten]
  show Double.magnitudeOfDecimal (Double.unitsOf m * Nat.pow 5 Double.finest) (-Double.finest) = m
  unfold Double.magnitudeOfDecimal
  by_cases h₀ : Double.unitsOf m * Nat.pow 5 Double.finest = 0
  · rw [if_pos h₀]
    have : Double.unitsOf m = 0 := (Nat.mul_eq_zero.1 h₀).resolve_right (Nat.ne_of_gt h₅)
    rw [← Double.magnitudeOfUnits_unitsOf h, this]
    rfl
  · have h₁ : Double.tenPow 0 = 1 := rfl
    rw [if_neg h₀, if_neg (by omega), Int.neg_neg, Int.toNat_natCast, Int.toNat_neg_natCast, h₁,
      Nat.mul_one, h₁₀, Double.magnitudeOfRatio, Nat.mul_assoc,
      Double.magnitudeOfUnits_mul_mul_right _ _ _ (Nat.mul_pos h₅ Double.stepsPerOne_pos),
      Double.magnitudeOfUnits_unitsOf h]

theorem onGrids?_reads_back {m : Nat} {scale : Int} {count : Nat} {d : Decimal}
    (h : onGrids? m scale count = some d) : d.magnitude = m := by
  induction count generalizing scale with
  | zero => cases h
  | succ count ih =>
    rw [onGrids?] at h
    split at h
    · rename_i e he
      cases h
      exact near?_reads_back he
    · exact ih h

theorem coarsest?_reads_back {m : Nat} {top : Int} {d : Decimal} (h : coarsest? m top = some d) :
    d.magnitude = m := by
  rw [coarsest?] at h
  exact onGrids?_reads_back h

/-- The fewest digits do read back as the number. -/
theorem shortest_reads_back {m : Nat} (h : m < Double.infinity) : (shortest m).magnitude = m := by
  unfold shortest
  cases hc : coarsest? m (leading m) with
  | none => exact inFull_reads_back h
  | some d => exact coarsest?_reads_back hc

end Decimal

/-- What a format writes where there are no digits to write. -/
structure NumberNames where
  nan : String
  infinity : String

namespace Double

/-- The text of a number: a sign if its sign bit is set, then the shortest digits. -/
def text (names : NumberNames) (d : Double) : String :=
  if d.isNaN then names.nan
  else
    let size :=
      if d.isInfinite then names.infinity
      else if d.isZero then "0"
      else String.ofList (Decimal.shortest d.magnitude).chars
    if d.isNegative then "-" ++ size else size

end Double

end Destructure
