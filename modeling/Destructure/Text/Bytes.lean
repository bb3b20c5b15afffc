/-!
# Destructure.Text.Bytes

Byte offsets in a text. A text is a list of characters, and its offsets count the bytes of UTF-8,
so an offset may lie past the end or inside a character.

* `byteLength` measures a run of characters.
* `splitAtByte` cuts at the last character boundary that is not past an offset: it never fails.
* `cutAtByte?` cuts at an offset that is itself a boundary, and refuses any other.
-/

namespace Destructure.Text

/-- Bytes that a run of characters takes in UTF-8. -/
def byteLength : List Char → Nat
  | [] => 0
  | c :: s => c.utf8Size + byteLength s

@[simp] theorem byteLength_nil : byteLength [] = 0 := rfl

@[simp] theorem byteLength_cons (c : Char) (s : List Char) :
    byteLength (c :: s) = c.utf8Size + byteLength s := rfl

@[simp] theorem byteLength_append (a b : List Char) :
    byteLength (a ++ b) = byteLength a + byteLength b := by
  induction a with
  | nil => simp
  | cons c a ih => simp [ih, Nat.add_assoc]

@[simp] theorem byteLength_reverse (s : List Char) : byteLength s.reverse = byteLength s := by
  induction s with
  | nil => rfl
  | cons c s ih => simp [ih, Nat.add_comm]

theorem byteLength_eq_zero {s : List Char} : byteLength s = 0 ↔ s = [] := by
  cases s with
  | nil => simp
  | cons c s => have := Char.utf8Size_pos c; simp; omega

/-- The characters that lie wholly within the first `n` bytes, and those after them. -/
def splitAtByte : Nat → List Char → List Char × List Char
  | _, [] => ([], [])
  | n, c :: s =>
    if c.utf8Size ≤ n then
      let parts := splitAtByte (n - c.utf8Size) s
      (c :: parts.1, parts.2)
    else ([], c :: s)

/-- A split loses nothing. -/
theorem splitAtByte_append (n : Nat) (s : List Char) :
    (splitAtByte n s).1 ++ (splitAtByte n s).2 = s := by
  fun_induction splitAtByte n s with
  | case1 => rfl
  | case2 n c s h parts ih => exact congrArg (c :: ·) ih
  | case3 => rfl

/-- The first part of a split is not longer than it may be. -/
theorem byteLength_splitAtByte_le (n : Nat) (s : List Char) :
    byteLength (splitAtByte n s).1 ≤ n := by
  fun_induction splitAtByte n s with
  | case1 => simp
  | case2 n c s h parts ih => simp only [byteLength_cons, parts]; omega
  | case3 => simp

/-- A cut at a boundary gives the two sides back. -/
theorem splitAtByte_byteLength (a b : List Char) :
    splitAtByte (byteLength a) (a ++ b) = (a, b) := by
  induction a with
  | nil => cases b with
    | nil => rfl
    | cons c b => have := Char.utf8Size_pos c; simp [splitAtByte]; omega
  | cons c a ih => simp [splitAtByte, ih]

/-- The text before and after byte offset `n`, if that is a character boundary of the text. -/
def cutAtByte? (n : Nat) (s : List Char) : Option (List Char × List Char) :=
  let parts := splitAtByte n s
  if byteLength parts.1 = n then some parts else none

theorem cutAtByte?_byteLength (a b : List Char) :
    cutAtByte? (byteLength a) (a ++ b) = some (a, b) := by
  simp [cutAtByte?, splitAtByte_byteLength]

/-- A cut at an offset gives the parts before and after it. -/
theorem cutAtByte?_eq_some {n : Nat} {s a b : List Char} :
    cutAtByte? n s = some (a, b) ↔ s = a ++ b ∧ byteLength a = n := by
  constructor
  · intro h
    simp only [cutAtByte?, Option.ite_none_right_eq_some, Option.some.injEq] at h
    have := splitAtByte_append n s
    rw [h.2] at this h
    exact ⟨this.symm, h.1⟩
  · rintro ⟨rfl, rfl⟩
    exact cutAtByte?_byteLength a b

end Destructure.Text
