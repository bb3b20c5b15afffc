import Destructure.Parsing.Error

/-!
# Destructure.Parsing.Step

What a parser does at a place in a text: it finds something or fails, it moves on, and it leaves a
record of what it tried.

Design points:

* A step also says where it stopped when it failed, so that reading can go on from there.
* A step never moves back: that is part of its type, and the reason why parsers end.
* The record is a tree: a call of the pattern parser holds what happened while it ran.
-/

namespace Destructure

/-- What is worth telling about the work of a parser. -/
inductive ParseEvent where
  /-- The pattern parser was called at an offset, and this happened meanwhile. -/
  | pattern (offset : Nat) (inner : List ParseEvent)
  /-- A list has an empty slot at an offset. -/
  | blank (offset : Nat)
  /-- A list that `terminator` ends has an element at an offset. -/
  | element (offset : Nat) (terminator : Char)
  /-- The parenthesis of a constructor pattern is open, and its contents start at an offset. -/
  | arguments (name : String) (offset : Nat)

/-- What a parser did at the place `c`. -/
structure Step (α : Type) (c : Cursor) where
  result : Except ParseError α
  /-- Where the parser stopped. -/
  next : Cursor
  /-- What happened, in order. -/
  events : List ParseEvent
  le_next : c ≤ next

namespace Step

variable {α β : Type} {c d : Cursor}

/-- Find `a` and stop at `d`. -/
def done (a : α) (d : Cursor) (h : c ≤ d) : Step α c := ⟨.ok a, d, [], h⟩

/-- Fail and stop at `d`. -/
def fail (e : ParseError) (d : Cursor) (h : c ≤ d) : Step α c := ⟨.error e, d, [], h⟩

/-- A step from a later place, seen from `c`. -/
def since (h : c ≤ d) (s : Step α d) : Step α c :=
  ⟨s.result, s.next, s.events, c.le_trans h s.le_next⟩

/-- Go on with what was found, from where the step stopped. A failure stays. -/
def bind (s : Step α c) (k : α → (d : Cursor) → c ≤ d → Step β d) : Step β c :=
  match s.result with
  | .error e => ⟨.error e, s.next, s.events, s.le_next⟩
  | .ok a =>
    let t := k a s.next s.le_next
    ⟨t.result, t.next, s.events ++ t.events, c.le_trans s.le_next t.le_next⟩

/-- Change what was found. -/
def map (f : α → β) (s : Step α c) : Step β c := ⟨s.result.map f, s.next, s.events, s.le_next⟩

/-- Name the production that was running in an error. -/
def within (p : Production) (s : Step α c) : Step α c :=
  ⟨s.result.mapError (·.within p), s.next, s.events, s.le_next⟩

/-- Tell of an event before the others. -/
def after (event : ParseEvent) (s : Step α c) : Step α c :=
  ⟨s.result, s.next, event :: s.events, s.le_next⟩

/-- Tell of all events as what happened in a call of the pattern parser. -/
def called (offset : Nat) (s : Step α c) : Step α c :=
  ⟨s.result, s.next, [.pattern offset s.events], s.le_next⟩

end Step

end Destructure
