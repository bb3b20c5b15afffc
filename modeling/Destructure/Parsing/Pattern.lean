import Destructure.Parsing.Literal
import Destructure.Parsing.Series

/-!
# Destructure.Parsing.Pattern

Reading patterns, with one character of look-ahead and without ever going back.

    pattern   := array | object | tagged | word | number | string
    array     := '[' (pattern? ',')* pattern? ']'
    object    := '{' ((entry ',')* entry)? ','? '}'
    entry     := word (':' pattern)?
    tagged    := word '(' (array | object)? ')'

White space may stand between any two of these. Reading stops at the first character that cannot go
on, and the error says what it should have been.

Design points:

* Each production but the first takes the parser for the patterns inside it as an argument, which it
  may use at later places only. So `parsePattern` is the one recursion, and it ends since every
  bracket is passed before what is inside.
* Words that are reserved are told from names here, and not where words are read.
-/

namespace Destructure

/-- A parser for patterns that is only used after the place `c`. -/
abbrev Later (c : Cursor) : Type := (d : Cursor) → c < d → Step Pattern d

/-- The elements of an array, at its opening bracket. An empty slot is a blank. -/
def parseElements (c : Cursor) (h : c < c.advance) (inner : Later c) : Step (List Pattern) c :=
  ((parseSeries .array c.currentSpan c.advance fun d hd =>
      inner d (Cursor.lt_of_lt_of_le h hd)).map (·.map (·.getD .blank))).since (Cursor.le_of_lt h)

/-- The error that the key between two places is reserved. -/
def reservedKeyError (key : String) (start stop : Cursor) : ParseError :=
  (ParseError.between (.reservedKey key) start stop).within .entry

/-- An entry of an object. A key that has no pattern of its own becomes a name, so it must not be
reserved; no property is called `_`. -/
def parseEntry (c : Cursor) (inner : Later c) : Step Entry c :=
  ((parseWord c).within .entry).bind fun key d hd =>
    let e := d.skipSpace
    have he : d ≤ e := d.le_skipSpace
    if h : e.current = some ':' then
      if key = "_" then .fail (reservedKeyError key c d) e.advance (Cursor.le_advance_of_le he)
      else
        ((inner e.advance (Cursor.lt_of_le_of_lt (c.le_trans hd he) (Cursor.lt_advance h))).map
          (.explicit key)).since (Cursor.le_advance_of_le he)
    -- A constant's word is reserved as a name, but not as a key with a pattern of its own.
    else if isReserved key then .fail (reservedKeyError key c d) e he
    else .done (.shorthand key) e he

/-- The entries of an object, at its opening bracket. -/
def parseEntries (c : Cursor) (h : c < c.advance) (inner : Later c) : Step (List Entry) c :=
  ((parseSeries .object c.currentSpan c.advance fun d hd =>
      parseEntry d fun e he =>
        inner e (Cursor.lt_of_lt_of_le h (Cursor.le_trans hd (Cursor.le_of_lt he)))).map
    (·.filterMap id)).since (Cursor.le_of_lt h)

/-- The contents of the parentheses of a constructor pattern, which may be missing. -/
def parseArguments (c : Cursor) (inner : Later c) : Step Arguments c :=
  if h : c.current = some '[' then (parseElements c (Cursor.lt_advance h) inner).map .positional
  else if h : c.current = some '\x7b' then (parseEntries c (Cursor.lt_advance h) inner).map .keyed
  else .done .unspecified c c.le_refl

/-- The closing parenthesis of a constructor pattern, of which the opening one has the span
`openSpan`. -/
def parseClosing (name : String) (openSpan : Span) (arguments : Arguments) (c : Cursor) :
    Step Pattern c :=
  let d := c.skipSpace
  have hd : c ≤ d := c.le_skipSpace
  match d.current with
  | some x =>
    if x = ')' then .done (.tagged name arguments) d.advance (Cursor.le_advance_of_le hd)
    else
      let expected := match arguments with
        | .unspecified => "`[`, `\x7b` or `)`"
        | _ => "`)`"
      .fail ((ParseError.unexpected expected d).within .tagged) d hd
  | none => .fail ((ParseError.here (.unclosed '(' ')' openSpan) d).within .tagged) d hd

/-- A pattern that starts with a word. A word without a parenthesis after it is a pattern only if
`acceptWord`. -/
def parseTagged (acceptWord : Bool) (c : Cursor) (inner : Later c) : Step Pattern c :=
  (parseWord c).bind fun name d hd =>
    let e := d.skipSpace
    have he : d ≤ e := d.le_skipSpace
    if h : e.current = some '(' then
      if isReserved name then
        .fail ((ParseError.between (.reservedConstructor name) c d).within .tagged) e he
      else
        let f := e.advance.skipSpace
        have hf : e < f := Cursor.lt_of_lt_of_le (Cursor.lt_advance h) e.advance.le_skipSpace
        have hcf : c < f := Cursor.lt_of_le_of_lt (c.le_trans hd he) hf
        (((parseArguments f fun g hg =>
              inner g (Cursor.lt_of_lt_of_le hcf (Cursor.le_of_lt hg))).bind fun arguments g _ =>
            parseClosing name e.currentSpan arguments g).after (.arguments name f.offset)).since
          (d.le_trans he (Cursor.le_of_lt hf))
    else if acceptWord then .done (.ofWord name) e he
    else .fail ((ParseError.unexpected "`(`" e).within .tagged) e he

/-- A pattern of any kind, at its first character. -/
def parseKind (c : Cursor) (inner : Later c) : Step Pattern c :=
  match h : c.current with
  | none => .fail (.unexpected "a pattern" c) c c.le_refl
  | some x =>
    if x = '[' then (parseElements c (Cursor.lt_advance h) inner).map .array
    else if x = '\x7b' then (parseEntries c (Cursor.lt_advance h) inner).map .object
    else if x = '\'' ∨ x = '"' then parseString x c
    else if x.isDigit then parseNumber c
    else if Text.isWordStart x then parseTagged true c inner
    else .fail (.unexpected "a pattern" c) c c.le_refl

/-- A pattern with the white space around it. -/
def parsePattern (c : Cursor) : Step Pattern c :=
  let d := c.skipSpace
  have hd : c ≤ d := c.le_skipSpace
  ((((parseKind d fun e _he => parsePattern e).within .pattern).called d.offset).bind fun p e _ =>
    .done p e.skipSpace e.le_skipSpace).since hd
termination_by c.ahead.length
decreasing_by
  exact Nat.lt_of_lt_of_le (Cursor.length_ahead_lt _he) (Cursor.length_ahead_le hd)

/-- A pattern that starts with a word. -/
def parseWordPattern (acceptWord : Bool) (c : Cursor) : Step Pattern c :=
  parseTagged acceptWord c fun d _ => parsePattern d

/-- Nothing but the end of the text. -/
def parseEnd (c : Cursor) : Step Unit c :=
  if c.isAtEnd then .done () c c.le_refl
  else .fail (.between .trailingInput c c.toEnd) c c.le_refl

/-- One pattern, and then the end of the text. -/
def parseWhole (c : Cursor) : Step Pattern c :=
  (parsePattern c).bind fun p d _ => (parseEnd d).map fun _ => p

/-- One constructor pattern, and then the end of the text. -/
def parseWholeTagged (c : Cursor) : Step Pattern c :=
  ((parseWordPattern false c.skipSpace).since c.le_skipSpace).bind fun p d _ =>
    ((parseEnd d.skipSpace).map fun _ => p).since d.le_skipSpace

/-- The pattern that a text spells. -/
def Pattern.parse (text : String) : Except ParseError Pattern :=
  (parseWhole (Cursor.ofString text)).result

/-- The pattern that a text spells, which must be a constructor pattern. -/
def Pattern.parseTagged (text : String) : Except ParseError Pattern :=
  (parseWholeTagged (Cursor.ofString text)).result

end Destructure
