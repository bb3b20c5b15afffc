import Destructure.Span
import Destructure.Text.Bytes
import Destructure.Text.Space

/-!
# Destructure.Cursor

A place in a text: what lies behind it, what lies ahead of it, and its byte offset.

Design points:

* Behind and ahead together are the text at every place, so a cursor cannot point outside its text
  or inside a character. The offset is kept beside them only so that it need not be counted again.
* All movement is `past`: the cursor moves over a run of characters that stands ahead of it.
* `c ≤ d` says that `d` is reached from `c` by moving forward in the same text.
-/

namespace Destructure

open Text

/-- A place in a text. -/
structure Cursor where
  /-- The characters before the place, the nearest first. -/
  behind : List Char
  /-- The characters after the place, the nearest first. -/
  ahead : List Char
  /-- The byte offset of the place. -/
  offset : Nat
  offset_eq : offset = byteLength behind

namespace Cursor

@[ext] theorem ext {c d : Cursor} (hb : c.behind = d.behind) (ha : c.ahead = d.ahead) : c = d := by
  obtain ⟨b, a, o, ho⟩ := c
  obtain ⟨b', a', o', ho'⟩ := d
  simp only at hb ha
  subst hb ha ho ho'
  rfl

/-- The place before all of `text`. -/
def atStart (text : List Char) : Cursor := ⟨[], text, 0, rfl⟩

instance : Inhabited Cursor := ⟨atStart []⟩

/-- The start of a text. -/
def ofString (text : String) : Cursor := atStart text.toList

/-- The whole text. -/
def text (c : Cursor) : List Char := c.behind.reverse ++ c.ahead

/-- The character ahead, if any. -/
def current (c : Cursor) : Option Char := c.ahead.head?

def isAtEnd (c : Cursor) : Bool := c.ahead.isEmpty

/-! ### Order of places -/

/-- `d` lies at or after `c` in the same text. -/
instance : LE Cursor :=
  ⟨fun c d => ∃ w, c.ahead = w ++ d.ahead ∧ d.behind = w.reverse ++ c.behind⟩

protected theorem le_refl (c : Cursor) : c ≤ c := ⟨[], rfl, rfl⟩

protected theorem le_trans {c d e : Cursor} (h₁ : c ≤ d) (h₂ : d ≤ e) : c ≤ e := by
  obtain ⟨w, ha, hb⟩ := h₁
  obtain ⟨v, ha', hb'⟩ := h₂
  exact ⟨w ++ v, by simp [ha, ha'], by simp [hb, hb']⟩

/-- Moving forward stays in the same text. -/
theorem text_eq_of_le {c d : Cursor} (h : c ≤ d) : c.text = d.text := by
  obtain ⟨w, ha, hb⟩ := h
  simp [text, ha, hb]

/-- Moving forward leaves no more text ahead. -/
theorem length_ahead_le {c d : Cursor} (h : c ≤ d) : d.ahead.length ≤ c.ahead.length := by
  obtain ⟨w, ha, -⟩ := h
  simp [ha]

theorem offset_le_offset {c d : Cursor} (h : c ≤ d) : c.offset ≤ d.offset := by
  obtain ⟨w, -, hb⟩ := h
  simp [c.offset_eq, d.offset_eq, hb]

/-- `d` lies after `c` in the same text. -/
instance : LT Cursor :=
  ⟨fun c d => ∃ w, w ≠ [] ∧ c.ahead = w ++ d.ahead ∧ d.behind = w.reverse ++ c.behind⟩

protected theorem le_of_lt {c d : Cursor} (h : c < d) : c ≤ d := by
  obtain ⟨w, -, ha, hb⟩ := h
  exact ⟨w, ha, hb⟩

theorem lt_of_lt_of_le {c d e : Cursor} (h₁ : c < d) (h₂ : d ≤ e) : c < e := by
  obtain ⟨w, hw, ha, hb⟩ := h₁
  obtain ⟨v, ha', hb'⟩ := h₂
  exact ⟨w ++ v, by simp [hw], by simp [ha, ha'], by simp [hb, hb']⟩

theorem lt_of_le_of_lt {c d e : Cursor} (h₁ : c ≤ d) (h₂ : d < e) : c < e := by
  obtain ⟨w, ha, hb⟩ := h₁
  obtain ⟨v, hv, ha', hb'⟩ := h₂
  exact ⟨w ++ v, by simp [hv], by simp [ha, ha'], by simp [hb, hb']⟩

/-- Moving on leaves less text ahead, so parsers end. -/
theorem length_ahead_lt {c d : Cursor} (h : c < d) : d.ahead.length < c.ahead.length := by
  obtain ⟨w, hw, ha, -⟩ := h
  have := List.length_pos_iff.2 hw
  simp [ha]
  omega

/-! ### Movement -/

/-- The place after `w`, which stands ahead and is followed by `rest`. -/
def past (c : Cursor) (w rest : List Char) (_ : c.ahead = w ++ rest) : Cursor :=
  ⟨w.reverse ++ c.behind, rest, c.offset + byteLength w, by simp [c.offset_eq, Nat.add_comm]⟩

@[simp] theorem ahead_past {c : Cursor} {w rest : List Char} (h : c.ahead = w ++ rest) :
    (c.past w rest h).ahead = rest := rfl

@[simp] theorem behind_past {c : Cursor} {w rest : List Char} (h : c.ahead = w ++ rest) :
    (c.past w rest h).behind = w.reverse ++ c.behind := rfl

@[simp] theorem offset_past {c : Cursor} {w rest : List Char} (h : c.ahead = w ++ rest) :
    (c.past w rest h).offset = c.offset + byteLength w := rfl

theorem le_past {c : Cursor} {w rest : List Char} (h : c.ahead = w ++ rest) :
    c ≤ c.past w rest h := ⟨w, h, rfl⟩

/-- Past the character ahead; at the end of the text the cursor stays where it is. -/
def advance (c : Cursor) : Cursor :=
  match h : c.ahead with
  | [] => c
  | x :: rest => c.past [x] rest h

/-- Past the longest run of characters ahead that satisfy `p`. -/
def skipWhile (p : Char → Bool) (c : Cursor) : Cursor :=
  c.past (c.ahead.takeWhile p) (c.ahead.dropWhile p) (List.takeWhile_append_dropWhile).symm

/-- Past the white space ahead. -/
def skipSpace (c : Cursor) : Cursor := c.skipWhile isSpace

/-- Past the end of the text. -/
def toEnd (c : Cursor) : Cursor := c.past c.ahead [] (List.append_nil _).symm

/-- Past the character ahead if it is `expected`, and whether it was. -/
def eat (expected : Char) (c : Cursor) : Bool × Cursor :=
  if c.current = some expected then (true, c.advance) else (false, c)

theorem ahead_advance (c : Cursor) : c.advance.ahead = c.ahead.tail := by
  unfold advance
  split <;> simp_all

theorem le_advance (c : Cursor) : c ≤ c.advance := by
  unfold advance
  split
  · exact c.le_refl
  · exact le_past _

@[simp] theorem ahead_skipWhile (p : Char → Bool) (c : Cursor) :
    (c.skipWhile p).ahead = c.ahead.dropWhile p := rfl

theorem le_skipWhile (p : Char → Bool) (c : Cursor) : c ≤ c.skipWhile p := le_past _

theorem le_skipSpace (c : Cursor) : c ≤ c.skipSpace := c.le_skipWhile _

theorem le_toEnd (c : Cursor) : c ≤ c.toEnd := le_past _

theorem le_advance_of_le {c d : Cursor} (h : c ≤ d) : c ≤ d.advance := c.le_trans h d.le_advance

theorem le_skipSpace_of_le {c d : Cursor} (h : c ≤ d) : c ≤ d.skipSpace :=
  c.le_trans h d.le_skipSpace

/-- Before the end of the text, advancing moves on. -/
theorem lt_advance {c : Cursor} {x : Char} (h : c.current = some x) : c < c.advance := by
  unfold advance
  split
  · simp_all [current]
  · rename_i y rest h'
    exact ⟨[y], by simp, h', rfl⟩

theorem length_ahead_advance_lt {c : Cursor} {x : Char} {rest : List Char}
    (h : c.ahead = x :: rest) : c.advance.ahead.length < c.ahead.length := by
  rw [ahead_advance, h]
  simp

/-! ### Stretches of the text -/

/-- The text from byte offset `n` up to the cursor; empty if `n` is past the cursor or inside a
character. -/
def textFrom (n : Nat) (c : Cursor) : List Char :=
  ((cutAtByte? n c.behind.reverse).map (·.2)).getD []

/-- The span from byte offset `n` up to the cursor. -/
def spanFrom (n : Nat) (c : Cursor) : Span := Span.ofOffsets n c.offset

/-- The span of the character ahead, empty at the end of the text. -/
def currentSpan (c : Cursor) : Span := c.advance.spanFrom c.offset

/-- The span of all that lies ahead. -/
def restSpan (c : Cursor) : Span := c.toEnd.spanFrom c.offset

end Cursor

end Destructure
