import Destructure.Dispatch.Basic
import Destructure.Value.Basic

/-!
# Destructure.Dispatch.Cache

Patterns that have been read, kept under their texts.

Design points:

* A cache is a handle on a table. Copies of a handle share the table, and a `CacheStore` holds the
  tables of all handles.
* The limit belongs to the handle. Once a table holds as many patterns as the limit of a handle,
  that handle reads new texts without keeping them. Nothing is ever evicted.
* Only patterns are kept. A text that is none is read again, and refused again, each time.
* A text is read without holding the table, so two owners may both read it. The first one to keep
  its pattern wins, and the other one is given that pattern too.
* A pattern that was kept is a thing with an identity, so that being handed the same pattern again
  can be told from being handed an equal one.
-/

namespace Destructure

/-- A pattern that may be in several hands. -/
structure SharedPattern where
  identity : Identity
  pattern : Pattern
  deriving Inhabited

/-- Patterns under their texts. -/
abbrev Table := List (String × SharedPattern)

/-- The tables of all caches, and the identities for what will be put into them. -/
structure CacheStore where
  tables : List Table := []
  supply : Supply := ⟨0⟩
  deriving Inhabited

/-- A handle on a table. -/
structure Cache where
  /-- The number of the table in the store. -/
  table : Nat
  /-- How many patterns the table may hold before this handle stops adding to it. -/
  limit : Option Nat
  deriving DecidableEq, Repr

namespace CacheStore

/-- The table with a number. -/
def table (s : CacheStore) (i : Nat) : Table := s.tables[i]?.getD []

/-- Replace a table. -/
def setTable (s : CacheStore) (i : Nat) (t : Table) : CacheStore :=
  { s with tables := s.tables.set i t }

/-- A handle on a new, empty table. -/
def newCache (s : CacheStore) (limit : Option Nat) : Cache × CacheStore :=
  (⟨s.tables.length, limit⟩, { s with tables := s.tables ++ [[]] })

end CacheStore

/-- What looking a text up gave, and what it has changed and told. -/
structure Lookup where
  result : Except ParseError SharedPattern
  store : CacheStore
  events : List DispatchEvent

namespace Cache

/-- The pattern kept under a text. -/
def get? (c : Cache) (text : String) (s : CacheStore) : Option SharedPattern :=
  Properties.lookup text (s.table c.table)

def contains (c : Cache) (text : String) (s : CacheStore) : Bool := (c.get? text s).isSome

def size (c : Cache) (s : CacheStore) : Nat := (s.table c.table).length

def isEmpty (c : Cache) (s : CacheStore) : Bool := (s.table c.table).isEmpty

/-- Has the table as many patterns as this handle allows? -/
def isFull (c : Cache) (s : CacheStore) : Bool :=
  match c.limit with
  | some limit => limit ≤ c.size s
  | none => false

/-- Forget all patterns of the table. -/
def clear (c : Cache) (s : CacheStore) : CacheStore := s.setTable c.table []

/-- Do two handles share one table? -/
def sharesTable (c d : Cache) : Bool := c.table == d.table

/-- Read a text that was not kept, and keep its pattern if there is room. If there is a pattern
under the text by now, that one is given. -/
def parseAndKeep (c : Cache) (text : String) (s : CacheStore) : Lookup :=
  let step := parseWhole (Cursor.ofString text)
  let events := step.events.map .parsing
  match step.result with
  | .error e => ⟨.error e, s, events⟩
  | .ok p =>
    -- What was just read is a new thing, also if it is not kept.
    let (identity, supply) := freshIdentity.run s.supply
    let s : CacheStore := { s with supply }
    let p : SharedPattern := ⟨identity, p⟩
    match c.get? text s with
    | some kept => ⟨.ok kept, s, events⟩
    | none =>
      if c.isFull s then ⟨.ok p, s, events ++ [.cacheFull text (c.size s)]⟩
      else ⟨.ok p, s.setTable c.table (s.table c.table ++ [(text, p)]), events⟩

/-- The pattern that a text spells, which is read only if it is not kept. -/
def getOrParse (c : Cache) (text : String) (s : CacheStore) : Lookup :=
  match c.get? text s with
  | some p => ⟨.ok p, s, [.cacheHit text]⟩
  | none => c.parseAndKeep text s

/-- The cache as it is shown when debugging. -/
def debugText (c : Cache) (s : CacheStore) : String :=
  "PatternCache(" ++ Nat.repr (c.size s) ++ " entries)"

end Cache

end Destructure
