import Destructure.Parsing.Step

/-!
# Destructure.Parsing.Series

Lists between brackets, with a separator between their slots: the elements of an array and the
entries of an object.

Design points:

* A slot is filled or empty. Whether it may be empty is up to the list.
* A separator before the terminator adds no slot: `[x,]` has one and `[,]` has one, an empty one.
* `parseSeries` takes any parser for the elements that does not move back. Each round passes a
  separator, so the list ends even if elements take no characters.
-/

namespace Destructure

/-- The form of a list. -/
structure Series where
  opening : Char
  separator : Char
  terminator : Char
  /-- May a slot be empty? -/
  allowsBlanks : Bool
  /-- What an error of the list itself is said to be in. -/
  production : Production
  deriving DecidableEq, Repr

namespace Series

/-- The elements of an array. -/
def array : Series := ⟨'[', ',', ']', true, .array⟩

/-- The entries of an object. -/
def object : Series := ⟨'\x7b', ',', '\x7d', false, .object⟩

/-- What may follow a filled slot. -/
def expected (s : Series) : String :=
  if s.separator = ',' ∧ s.terminator = ']' then "`,` or `]`"
  else if s.separator = ',' ∧ s.terminator = '\x7d' then "`,` or `\x7d`"
  else if s.separator = ',' ∧ s.terminator = ')' then "`,` or `)`"
  else "a separator or the end of the list"

/-- The error that the text ends inside the list. -/
def unclosed (s : Series) (openSpan : Span) (c : Cursor) : ParseError :=
  (ParseError.here (.unclosed s.opening s.terminator openSpan) c).within s.production

/-- The error that a slot is empty. -/
def emptySlot (s : Series) (c : Cursor) : ParseError :=
  (ParseError.here .blankNotAllowed c).within s.production

/-- The error that neither a separator nor the terminator follows a slot. -/
def unseparated (s : Series) (found : Char) (c : Cursor) : ParseError :=
  (ParseError.here (.unexpectedCharacter found s.expected) c).within s.production

end Series

variable {α : Type}

/-- The slot at `d`, where the character `x` stands ahead. -/
def parseSlot (s : Series) (x : Char) {c : Cursor} (d : Cursor) (hd : c ≤ d)
    (element : (d : Cursor) → c ≤ d → Step α d) : Step (Option α) d :=
  if x = s.separator then
    if s.allowsBlanks then (Step.done none d d.le_refl).after (.blank d.offset)
    else .fail (s.emptySlot d) d d.le_refl
  else ((element d hd).map some).after (.element d.offset s.terminator)

/-- The slots of a list from `d` on, up to and with its terminator. -/
def parseSlots (s : Series) (openSpan : Span) {c : Cursor}
    (element : (d : Cursor) → c ≤ d → Step α d) (d : Cursor) (hd : c ≤ d) :
    Step (List (Option α)) d :=
  let e := d.skipSpace
  have he : d ≤ e := d.le_skipSpace
  match e.current with
  | none => .fail (s.unclosed openSpan e) e he
  | some x =>
    -- The terminator comes first: it also ends a list that it would separate.
    if x = s.terminator then .done [] e.advance (Cursor.le_advance_of_le he)
    else
      ((parseSlot s x e (c.le_trans hd he) element).since he).bind fun slot f hf =>
        let g := f.skipSpace
        have hg : f ≤ g := f.le_skipSpace
        match _hy : g.ahead with
        | [] => .fail (s.unclosed openSpan g) g hg
        | y :: _ =>
          if y = s.terminator then .done [slot] g.advance (Cursor.le_advance_of_le hg)
          else if y = s.separator then
            ((parseSlots s openSpan element g.advance
              (c.le_trans hd (d.le_trans hf (Cursor.le_advance_of_le hg)))).map
                (slot :: ·)).since (Cursor.le_advance_of_le hg)
          else .fail (s.unseparated y g) g hg
termination_by d.ahead.length
decreasing_by
  exact Nat.lt_of_lt_of_le (Cursor.length_ahead_advance_lt _hy)
    (Nat.le_trans (Cursor.length_ahead_le hg) (Cursor.length_ahead_le hf))

/-- The slots of a list whose opening bracket has been passed, up to and with its terminator. An
empty slot is `none`. -/
def parseSeries (s : Series) (openSpan : Span) (c : Cursor)
    (element : (d : Cursor) → c ≤ d → Step α d) : Step (List (Option α)) c :=
  parseSlots s openSpan element c c.le_refl

end Destructure
