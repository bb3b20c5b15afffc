/-!
# Destructure.Double.Basic

Double-precision numbers as their 64 bits: a sign, eleven bits of exponent and fifty-two of
fraction.

Design points:

* `magnitude` is the bits without the sign, read as one natural number. It orders the non-negative
  numbers, infinity is `infinity`, and everything above is not a number.
* `unitsOf` measures a finite magnitude in steps of the smallest positive double. Every finite
  double is a whole number of steps, so all arithmetic on them is exact in `Nat`.
* `==` is the comparison of IEEE 754, which no NaN passes and which joins the two zeros.
-/

namespace Destructure

/-- A double-precision number, given by its bits. -/
structure Double where
  /-- Sign, exponent and fraction, from the highest bit down. -/
  bits : UInt64
  deriving Inhabited

namespace Double

/-- The weight of the sign bit, the 63rd power of two. -/
def signWeight : Nat := 0x8000000000000000

/-- The weight of the lowest bit of the exponent, the 52nd power of two. All fractions are below. -/
def exponentWeight : Nat := 0x10000000000000

/-- The magnitude of infinity: the highest exponent with a zero fraction. -/
def infinity : Nat := 0x7FF * exponentWeight

/-- All bits but the sign, as a natural number. -/
def magnitude (d : Double) : Nat := d.bits.toNat % signWeight

/-- Is the sign bit set? The zeros and the NaNs have one too. -/
def isNegative (d : Double) : Bool := signWeight ≤ d.bits.toNat

/-- The double with this sign bit and this magnitude below `signWeight`. -/
def ofMagnitude (negative : Bool) (m : Nat) : Double :=
  ⟨UInt64.ofNat (if negative then signWeight + m else m)⟩

def isNaN (d : Double) : Bool := infinity < d.magnitude

def isInfinite (d : Double) : Bool := d.magnitude == infinity

def isFinite (d : Double) : Bool := d.magnitude < infinity

def isZero (d : Double) : Bool := d.magnitude == 0

/-- The binary places after the point that the smallest positive double needs. -/
def finest : Nat := 1074

/-- How many times the smallest positive double goes into one. -/
def stepsPerOne : Nat := 1 <<< finest

theorem stepsPerOne_pos : 0 < stepsPerOne := by
  rw [stepsPerOne, Nat.one_shiftLeft]
  exact Nat.two_pow_pos _

/-- The size of a number of magnitude `m` below `infinity`, in steps of the smallest double. The
lowest exponent has no leading bit besides the fraction, every other has one. -/
def unitsOf (m : Nat) : Nat :=
  if m < exponentWeight then m
  else (exponentWeight + m % exponentWeight) <<< (m / exponentWeight - 1)

/-- Equality of numbers: false for NaN, true of the two zeros. -/
def numEq (a b : Double) : Bool :=
  !a.isNaN && !b.isNaN && (a.bits == b.bits || (a.isZero && b.isZero))

instance : BEq Double := ⟨numEq⟩

theorem beq_eq (a b : Double) : (a == b) = numEq a b := rfl

theorem isNegative_ofMagnitude {m : Nat} (negative : Bool) (h : m < signWeight) :
    (ofMagnitude negative m).isNegative = negative := by
  simp only [signWeight] at h
  cases negative <;> simp [ofMagnitude, isNegative, signWeight] <;> omega

theorem magnitude_ofMagnitude {m : Nat} (negative : Bool) (h : m < signWeight) :
    (ofMagnitude negative m).magnitude = m := by
  simp only [signWeight] at h
  cases negative <;> simp [ofMagnitude, magnitude, signWeight] <;> omega

/-- A double is its sign and its magnitude. -/
theorem ofMagnitude_magnitude (d : Double) : ofMagnitude d.isNegative d.magnitude = d := by
  obtain ⟨bits⟩ := d
  have hb := bits.toNat_lt
  apply congrArg Double.mk
  apply UInt64.toNat_inj.1
  rw [UInt64.toNat_ofNat']
  cases h : isNegative ⟨bits⟩
  · have h' : ¬ signWeight ≤ bits.toNat := of_decide_eq_false h
    simp only [signWeight] at h'
    simp only [Bool.false_eq_true, ↓reduceIte, magnitude, signWeight]
    omega
  · have h' : signWeight ≤ bits.toNat := of_decide_eq_true h
    simp only [signWeight] at h'
    simp only [↓reduceIte, magnitude, signWeight]
    omega

/-- Equality fails on itself at NaN alone. -/
theorem beq_self (d : Double) : (d == d) = !d.isNaN := by
  simp [beq_eq, numEq]

theorem beq_comm (a b : Double) : (a == b) = (b == a) := by
  simp only [beq_eq, numEq, BEq.comm (a := a.bits), Bool.and_comm (x := a.isZero)]
  cases a.isNaN <;> cases b.isNaN <;> rfl

/-- Equal numbers have the same bits, or both are a zero; and neither is NaN. -/
theorem beq_iff {a b : Double} :
    (a == b) = true ↔ a.isNaN = false ∧ b.isNaN = false ∧
      (a.bits = b.bits ∨ (a.isZero = true ∧ b.isZero = true)) := by
  simp [beq_eq, numEq, and_assoc]

theorem beq_trans {a b c : Double} (hab : (a == b) = true) (hbc : (b == c) = true) :
    (a == c) = true := by
  have hzero {d e : Double} (h : d.bits = e.bits) : d.isZero = e.isZero := by
    rw [isZero, isZero, magnitude, magnitude, h]
  obtain ⟨ha, -, hab⟩ := beq_iff.1 hab
  obtain ⟨-, hc, hbc⟩ := beq_iff.1 hbc
  refine beq_iff.2 ⟨ha, hc, ?_⟩
  rcases hab with hab | ⟨haz, hbz⟩
  · rcases hbc with hbc | ⟨hbz, hcz⟩
    · exact .inl (hab.trans hbc)
    · exact .inr ⟨(hzero hab).trans hbz, hcz⟩
  · rcases hbc with hbc | ⟨-, hcz⟩
    · exact .inr ⟨haz, (hzero hbc).symm.trans hbz⟩
    · exact .inr ⟨haz, hcz⟩

end Double

end Destructure
