import Destructure.Proofs.Parsing.Finds
import Destructure.Proofs.Parsing.Grammar
import Mathlib.Data.List.DropRight

/-!
# Destructure.Proofs.Parsing.Delimiters

Where one token ends and the next one starts.

A word or a number is read as far as it goes, and white space is skipped as far as it goes. So what
follows decides whether a text is read as the token that it spells: `Breaks` is what a word or a
number needs after it, `Delimits` is what a whole pattern needs.
-/

namespace Destructure

open Text

variable {c : Cursor}

/-! ### Classes of characters -/

theorem isAlpha_iff {x : Char} :
    x.isAlpha = true ↔ (65 ≤ x.toNat ∧ x.toNat ≤ 90) ∨ (97 ≤ x.toNat ∧ x.toNat ≤ 122) := by
  show (decide (x.val ≥ 'A'.val ∧ x.val ≤ 'Z'.val) ||
    (decide (x.val ≥ 'a'.val) && decide (x.val ≤ 'z'.val))) = true ↔ _
  simp only [Bool.or_eq_true, Bool.and_eq_true, decide_eq_true_eq, ge_iff_le,
    UInt32.le_iff_toNat_le]
  exact Iff.rfl

theorem isDigit_iff {x : Char} : x.isDigit = true ↔ 48 ≤ x.toNat ∧ x.toNat ≤ 57 :=
  Char.isDigit_iff_toNat

/-- What words and numbers are made of. -/
theorem isNumberPart_cases {x : Char} (h : isNumberPart x = true) :
    x.isAlpha = true ∨ x.isDigit = true ∨ x = '.' ∨ x = '_' ∨ x = '$' := by
  simp only [isNumberPart, isWordPart, Char.isAlphanum, Bool.or_eq_true, beq_iff_eq] at h
  rcases h with h | ((h | h) | h) | h
  · exact .inr (.inr (.inl h))
  · exact .inl h
  · exact .inr (.inl h)
  · exact .inr (.inr (.inr (.inl h)))
  · exact .inr (.inr (.inr (.inr h)))

/-- No word or number has white space in it. -/
theorem not_isSpace_of_isNumberPart {x : Char} (h : isNumberPart x = true) : isSpace x = false := by
  rw [← Bool.not_eq_true]
  intro hs
  simp only [isSpace, inRanges, spaceRanges, List.any_cons, List.any_nil, Bool.or_eq_true,
    Bool.and_eq_true, decide_eq_true_eq, Bool.or_false] at hs
  rcases isNumberPart_cases h with h | h | rfl | rfl | rfl
  · have := isAlpha_iff.1 h
    omega
  · have := isDigit_iff.1 h
    omega
  · revert hs; decide
  · revert hs; decide
  · revert hs; decide

/-- No word starts as a number does. -/
theorem not_isDigit_of_isWordStart {x : Char} (h : isWordStart x = true) : x.isDigit = false := by
  rw [← Bool.not_eq_true]
  intro hd
  have hdigit := isDigit_iff.1 hd
  simp only [isWordStart, Bool.or_eq_true, beq_iff_eq] at h
  rcases h with (h | rfl) | rfl
  · have := isAlpha_iff.1 h
    omega
  · revert hd; decide
  · revert hd; decide

theorem isNumberPart_of_isWordPart {x : Char} (h : isWordPart x = true) :
    isNumberPart x = true := by
  simp [isNumberPart, h]

theorem isNumberPart_of_isDigit {x : Char} (h : x.isDigit = true) : isNumberPart x = true := by
  simp [isNumberPart, isWordPart, Char.isAlphanum, h]

/-! ### White space -/

theorem Spaces.append {u v : List Char} (hu : Spaces u) (hv : Spaces v) : Spaces (u ++ v) := by
  intro x hx
  rcases List.mem_append.1 hx with h | h
  · exact hu x h
  · exact hv x h

theorem spaces_nil : Spaces [] := fun _ h => absurd h List.not_mem_nil

theorem dropWhile_spaces {u : List Char} (hu : Spaces u) (r : List Char) :
    (u ++ r).dropWhile isSpace = r.dropWhile isSpace :=
  List.dropWhile_append_of_pos hu

theorem dropWhile_of_not_isSpace {x : Char} (hx : isSpace x = false) (r : List Char) :
    (x :: r).dropWhile isSpace = x :: r :=
  List.dropWhile_cons_of_neg (by simp [hx])

/-- White space is skipped up to the first character that is none. -/
theorem dropWhile_spaces_cons {u : List Char} (hu : Spaces u) {x : Char} (hx : isSpace x = false)
    (r : List Char) : (u ++ x :: r).dropWhile isSpace = x :: r := by
  rw [dropWhile_spaces hu, dropWhile_of_not_isSpace hx]

/-- What is skipped as white space is white space. -/
theorem Cursor.spaces_before_skipSpace (c : Cursor) :
    ∃ u, Spaces u ∧ c.ahead = u ++ c.skipSpace.ahead :=
  ⟨c.ahead.takeWhile isSpace, List.all_eq_true.1 List.all_takeWhile,
    List.takeWhile_append_dropWhile.symm⟩

theorem Cursor.ahead_of_current {x : Char} (h : c.current = some x) :
    c.ahead = x :: c.advance.ahead := by
  obtain ⟨rest, hr⟩ := Cursor.current_eq_some.1 h
  rw [Cursor.ahead_advance, hr]
  rfl

/-- After white space comes none. -/
theorem Cursor.not_isSpace_of_current_skipSpace {x : Char} (h : c.skipSpace.current = some x) :
    isSpace x = false := by
  have := List.head?_dropWhile_not isSpace c.ahead
  rw [show (c.ahead.dropWhile isSpace).head? = some x from h] at this
  exact this

/-- Before a character that is no white space, none is skipped. -/
theorem Cursor.skipSpace_eq_self {x : Char} (h : c.current = some x) (hx : isSpace x = false) :
    c.skipSpace = c := by
  obtain ⟨rest, hr⟩ := Cursor.current_eq_some.1 h
  refine Cursor.eq_of_ahead_eq c.le_skipSpace c.le_refl ?_
  show c.ahead.dropWhile isSpace = c.ahead
  rw [hr, List.dropWhile_cons_of_neg (by simp [hx])]

theorem Cursor.current_of_ahead {x : Char} {r : List Char} (h : c.ahead = x :: r) :
    c.current = some x ∧ c.advance.ahead = r :=
  ⟨Cursor.current_eq_some.2 ⟨r, h⟩, by rw [Cursor.ahead_advance, h]; rfl⟩

theorem Cursor.ahead_skipSpace {u : List Char} (hu : Spaces u) {x : Char} (hx : isSpace x = false)
    {r : List Char} (h : c.ahead = u ++ x :: r) : c.skipSpace.ahead = x :: r := by
  show c.ahead.dropWhile isSpace = x :: r
  rw [h, dropWhile_spaces_cons hu hx]

theorem Cursor.ahead_skipSpace_of_spaces (h : Spaces c.ahead) : c.skipSpace.ahead = [] :=
  List.dropWhile_eq_nil_iff.2 h

/-- After white space has been skipped there is none left to skip. -/
theorem Cursor.skipSpace_skipSpace (c : Cursor) : c.skipSpace.skipSpace = c.skipSpace := by
  refine Cursor.eq_of_ahead_eq (c.le_trans c.le_skipSpace c.skipSpace.le_skipSpace)
    c.le_skipSpace ?_
  exact List.dropWhile_idempotent isSpace c.ahead

/-! ### What may follow -/

/-- A character that ends the pattern before it. -/
def IsDelimiter (x : Char) : Prop := x = ',' ∨ x = ']' ∨ x = '\x7d' ∨ x = ')'

theorem IsDelimiter.not_isNumberPart {x : Char} (h : IsDelimiter x) : isNumberPart x = false := by
  rcases h with rfl | rfl | rfl | rfl <;> decide

theorem IsDelimiter.not_isSpace {x : Char} (h : IsDelimiter x) : isSpace x = false := by
  rcases h with rfl | rfl | rfl | rfl <;> decide

/-- Neither a word nor a number goes on in `rest`. -/
def Breaks (rest : List Char) : Prop := ∀ x ∈ rest.head?, isNumberPart x = false

/-- A pattern ends before `rest`. -/
def Delimits (rest : List Char) : Prop :=
  ∀ x ∈ (rest.dropWhile isSpace).head?, IsDelimiter x

/-- A word or a number ends at white space, and at a character that it cannot have. -/
theorem breaks_spaces {u : List Char} (hu : Spaces u) {x : Char} (hx : isNumberPart x = false)
    (r : List Char) : Breaks (u ++ x :: r) := by
  intro y hy
  cases u with
  | nil => exact Option.some.inj hy ▸ hx
  | cons z u =>
    obtain rfl : z = y := Option.some.inj hy
    rw [← Bool.not_eq_true]
    intro h
    exact absurd (hu z List.mem_cons_self) (by simp [not_isSpace_of_isNumberPart h])

/-- Where a pattern ends, a word or a number in it cannot go on. -/
theorem Delimits.breaks {rest : List Char} (h : Delimits rest) : Breaks rest := by
  intro x hx
  obtain ⟨r, rfl⟩ := List.head?_eq_some_iff.1 hx
  rw [← Bool.not_eq_true]
  intro hn
  have hd := h x (by rw [dropWhile_of_not_isSpace (not_isSpace_of_isNumberPart hn)]; rfl)
  exact absurd hn (by simp [hd.not_isNumberPart])

/-- A pattern ends before a delimiter, with white space before that or not. -/
theorem delimits_spaces {w : List Char} (hw : Spaces w) {x : Char} (hx : IsDelimiter x)
    (r : List Char) : Delimits (w ++ x :: r) := by
  intro y hy
  rw [dropWhile_spaces_cons hw hx.not_isSpace] at hy
  exact Option.some.inj hy ▸ hx

/-- A pattern ends at the end of the text. -/
theorem delimits_of_spaces {w : List Char} (hw : Spaces w) : Delimits w := by
  intro x hx
  rw [List.dropWhile_eq_nil_iff.2 hw] at hx
  cases hx

end Destructure
