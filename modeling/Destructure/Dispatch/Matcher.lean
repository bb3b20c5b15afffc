import Destructure.Dispatch.Cache

/-!
# Destructure.Dispatch.Matcher

Matchers: dispatch whose arms are fixed once and used on many values. As a rule a matcher has a
cache, so that each text is read only once.
-/

namespace Destructure

variable {α : Type}

/-- Arms, and a cache for their patterns if there is one. -/
structure Matcher (α : Type) where
  arms : List (Arm α)
  cache : Option Cache

/-- What a matcher is to be made of. -/
structure MatcherBuilder (α : Type) where
  arms : List (Arm α) := []
  usesCache : Bool := true
  shared : Option Cache := none

namespace MatcherBuilder

/-- Turn caching on or off. Off, texts are read each time they are needed. -/
def cache (b : MatcherBuilder α) (enabled : Bool) : MatcherBuilder α :=
  { b with usesCache := enabled }

/-- Use this cache instead of one of its own, and turn caching on. -/
def sharedCache (b : MatcherBuilder α) (c : Cache) : MatcherBuilder α :=
  { b with usesCache := true, shared := some c }

/-- Add an arm after the others. -/
def arm (b : MatcherBuilder α) (pattern : String) (handler : Handler α) : MatcherBuilder α :=
  { b with arms := b.arms ++ [⟨pattern, handler⟩] }

/-- The matcher. If it is to have a cache of its own, that has a new table and no limit. -/
def build (b : MatcherBuilder α) (s : CacheStore) : Matcher α × CacheStore :=
  if b.usesCache then
    match b.shared with
    | some c => (⟨b.arms, some c⟩, s)
    | none =>
      let (c, s) := s.newCache none
      (⟨b.arms, some c⟩, s)
  else (⟨b.arms, none⟩, s)

end MatcherBuilder

/-- The outcome of reading the texts of arms. -/
structure Validated where
  result : Except MatchError Unit
  store : CacheStore
  events : List DispatchEvent

namespace Matcher

/-- Find the pattern that a text stands for, through the cache if there is one. -/
def resolve (m : Matcher α) (text : String) (s : CacheStore) : Resolved CacheStore :=
  match m.cache with
  | some c =>
    let l := c.getOrParse text s
    ⟨l.result.map (·.pattern), l.store, l.events⟩
  | none => resolveAnew text s

/-- The first arm that matches gives the result; there is none if no arm does. -/
def apply (m : Matcher α) (v : Value) (s : CacheStore) : Dispatched α CacheStore :=
  runArms m.resolve v m.arms s

/-- Apply a matcher one of whose arms has to match. The caches are left as by any other
application. -/
def applyExhaustive (m : Matcher α) (v : Value) (s : CacheStore) :
    Except MatchError α × CacheStore :=
  let d := m.apply v s
  (d.exhaustive v m.arms, d.state)

/-- Read the texts of arms in order, up to the first that is no pattern. -/
def validateArms (m : Matcher α) : List (Arm α) → CacheStore → Validated
  | [], s => ⟨.ok (), s, []⟩
  | arm :: arms, s =>
    let r := m.resolve arm.pattern s
    match r.result with
    | .error e => ⟨.error (.invalidPattern arm.pattern e), r.state, r.events⟩
    | .ok _ =>
      let rest := m.validateArms arms r.state
      ⟨rest.result, rest.store, r.events ++ rest.events⟩

/-- Read the texts of all arms, which also fills the cache, and report the first that is no
pattern. -/
def validate (m : Matcher α) (s : CacheStore) : Validated := m.validateArms m.arms s

/-- The matcher as it is shown when debugging. -/
def debugText (m : Matcher α) (s : CacheStore) : String :=
  let arms := m.arms.map fun arm =>
    "Arm \x7b pattern: " ++ Text.debugQuoted arm.pattern ++ ", handler: " ++ arm.handler.debugText
      ++ " \x7d"
  let cache := match m.cache with
    | some c => "Some(" ++ c.debugText s ++ ")"
    | none => "None"
  "Matcher \x7b arms: [" ++ String.intercalate ", " arms ++ "], cache: " ++ cache ++ " \x7d"

end Matcher

end Destructure
