import Destructure.Dispatch.Handler
import Destructure.Matching.Basic
import Destructure.Parsing.Pattern

/-!
# Destructure.Dispatch.Basic

Dispatch: arms are tried in order, and the first one that matches gives the result.

Design points:

* How the text of an arm becomes a pattern is left open, with a state that this may change. So one
  loop serves both plain dispatch, which reads every text anew, and matchers with a cache.
* A text that is no pattern and a misused pattern end the dispatch with an error, also if a later
  arm would have matched. Texts of arms after the deciding one are not read.
* The run is recorded: the guards and callbacks that were consulted, and the events on the way.
-/

namespace Destructure

variable {α σ : Type}

/-- The text of a pattern with what is to be done when it matches. -/
structure Arm (α : Type) where
  pattern : String
  handler : Handler α

/-- What is worth telling about a dispatch. -/
inductive DispatchEvent where
  /-- Dispatch over so many arms begins. -/
  | started (arms : Nat)
  /-- A pattern was read. -/
  | parsing (event : ParseEvent)
  /-- A pattern was found in a cache. -/
  | cacheHit (pattern : String)
  /-- A pattern was read that a full cache could not take. -/
  | cacheFull (pattern : String) (entries : Nat)
  /-- A value does not match. -/
  | mismatch (why : Mismatch)
  /-- An arm matched and gave the result. -/
  | matched (arm : Nat) (pattern : String) (bindings : Bindings)
  /-- An arm matched, but a guard rejected the match. -/
  | rejected (arm : Nat) (pattern : String)
  /-- No arm is left. -/
  | unmatched

/-- The pattern that a text stands for, and what finding it has changed and told. -/
structure Resolved (σ : Type) where
  result : Except ParseError Pattern
  state : σ
  events : List DispatchEvent

/-- The end of a dispatch, and what happened on the way. -/
structure Dispatched (α σ : Type) where
  result : Except MatchError (Option α)
  state : σ
  consulted : List Consultation
  events : List DispatchEvent

/-- Put what happened earlier in front. -/
def Dispatched.following (d : Dispatched α σ) (consulted : List Consultation)
    (events : List DispatchEvent) : Dispatched α σ :=
  ⟨d.result, d.state, consulted ++ d.consulted, events ++ d.events⟩

/-- Try arms in order, where `index` is the number of the first. -/
def tryArms (resolve : String → σ → Resolved σ) (v : Value) :
    Nat → List (Arm α) → σ → Dispatched α σ
  | _, [], s => ⟨.ok none, s, [], [.unmatched]⟩
  | index, arm :: arms, s =>
    let r := resolve arm.pattern s
    match r.result with
    | .error e => ⟨.error (.invalidPattern arm.pattern e), r.state, [], r.events⟩
    | .ok p =>
      let a := p.attempt v .empty
      match a.verdict with
      | .misuse typeName => ⟨.error (.notCaseClass typeName), r.state, [], r.events⟩
      | .mismatch why =>
        (tryArms resolve v (index + 1) arms r.state).following [] (r.events ++ [.mismatch why])
      | .matched =>
        match arm.handler.invoke a.bindings v with
        | (some result, consulted) =>
          ⟨.ok (some result), r.state, consulted,
            r.events ++ [.matched index arm.pattern a.bindings]⟩
        | (none, consulted) =>
          (tryArms resolve v (index + 1) arms r.state).following consulted
            (r.events ++ [.rejected index arm.pattern])

/-- Dispatch over arms, with a way to find their patterns. -/
def runArms (resolve : String → σ → Resolved σ) (v : Value) (arms : List (Arm α)) (s : σ) :
    Dispatched α σ :=
  (tryArms resolve v 0 arms s).following [] [.started arms.length]

/-- Read a text each time it is needed. -/
def resolveAnew (text : String) (s : σ) : Resolved σ :=
  let step := parseWhole (Cursor.ofString text)
  ⟨step.result, s, step.events.map .parsing⟩

/-- The first arm that matches gives the result; there is none if no arm does. -/
def dispatch (v : Value) (arms : List (Arm α)) : Dispatched α Unit := runArms resolveAnew v arms ()

/-- The error that none of the arms matched. -/
def unmatchedError (v : Value) (arms : List (Arm α)) : MatchError :=
  (MatchError.nonExhaustive v).addNote <|
    if arms.isEmpty then "there are no arms"
    else "patterns tried: "
      ++ String.intercalate ", " (arms.map fun arm => "`" ++ arm.pattern ++ "`")

/-- The result of a dispatch that must have one. -/
def Dispatched.exhaustive (d : Dispatched α σ) (v : Value) (arms : List (Arm α)) :
    Except MatchError α :=
  match d.result with
  | .ok (some a) => .ok a
  | .ok none => .error (unmatchedError v arms)
  | .error e => .error e

/-- Dispatch over arms one of which has to match. -/
def dispatchExhaustive (v : Value) (arms : List (Arm α)) : Except MatchError α :=
  (dispatch v arms).exhaustive v arms

end Destructure
