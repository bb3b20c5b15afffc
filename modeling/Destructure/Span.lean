/-!
# Destructure.Span

Stretches of a text, as a pair of byte offsets. Texts are short, so an offset takes 32 bits, and an
offset beyond them counts as the greatest one.
-/

namespace Destructure

/-- The bytes from `start` up to, and without, `stop`. Nothing is promised about their order. -/
structure Span where
  start : UInt32
  stop : UInt32
  deriving DecidableEq, Inhabited, Repr

namespace Span

/-- The greatest offset. -/
def maxOffset : Nat := 0xFFFFFFFF

/-- A byte offset as it is stored. -/
def bound (n : Nat) : UInt32 := UInt32.ofNat (min n maxOffset)

/-- The span between two byte offsets. -/
def ofOffsets (start stop : Nat) : Span := ⟨bound start, bound stop⟩

/-- The empty span at an offset. -/
def point (offset : UInt32) : Span := ⟨offset, offset⟩

/-- Bytes in the span; none if its bounds are reversed. -/
def length (s : Span) : Nat := s.stop.toNat - s.start.toNat

def isEmpty (s : Span) : Bool := s.length == 0

/-- The two offsets with two points between them. -/
def text (s : Span) : String := Nat.repr s.start.toNat ++ ".." ++ Nat.repr s.stop.toNat

theorem toNat_bound (n : Nat) : (bound n).toNat = min n maxOffset := by
  simp only [bound, maxOffset, UInt32.toNat_ofNat']
  omega

theorem toNat_bound_of_le {n : Nat} (h : n ≤ maxOffset) : (bound n).toNat = n := by
  rw [toNat_bound, Nat.min_eq_left h]

/-- Storing offsets keeps their order. -/
theorem bound_le_bound {a b : Nat} (h : a ≤ b) : bound a ≤ bound b := by
  rw [UInt32.le_iff_toNat_le, toNat_bound, toNat_bound]
  omega

end Span

end Destructure
