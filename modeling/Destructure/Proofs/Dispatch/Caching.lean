import Destructure.Proofs.Dispatch.Resolving

/-!
# Destructure.Proofs.Dispatch.Caching

Caching is invisible: a matcher gives what plain dispatch over its arms gives, however it was built
and whatever has happened to its cache before (`apply_eq_dispatch`).

Design points:

* A history is a list of operations with any handles and any matchers, and so it tells of several
  owners of one table too. It starts where no cache has been made yet.
* The result type may differ from one matcher to the next, so an operation hides it.

Proof shape: one operation preserves faithfulness (`Faithful.run`), hence a history does
(`faithful_runAll`), and in a faithful store a matcher resolves texts as plain dispatch does.
-/

namespace Destructure

variable {α : Type} {s : CacheStore}

/-! ### Histories -/

/-- What may be done with caches. -/
inductive CacheOp : Type 1 where
  | newCache (limit : Option Nat)
  | getOrParse (c : Cache) (text : String)
  | clear (c : Cache)
  | build {α : Type} (b : MatcherBuilder α)
  | apply {α : Type} (m : Matcher α) (v : Value)
  | applyExhaustive {α : Type} (m : Matcher α) (v : Value)
  | validate {α : Type} (m : Matcher α)

namespace CacheOp

def run : CacheOp → CacheStore → CacheStore
  | newCache limit, s => (s.newCache limit).2
  | getOrParse c text, s => (c.getOrParse text s).store
  | clear c, s => c.clear s
  | build b, s => (b.build s).2
  | apply m v, s => (m.apply v s).state
  | applyExhaustive m v, s => (m.applyExhaustive v s).2
  | validate m, s => (m.validate s).store

def runAll (ops : List CacheOp) (s : CacheStore) : CacheStore := ops.foldl (fun s op => op.run s) s

end CacheOp

namespace CacheStore

theorem Faithful.build (h : s.Faithful) (b : MatcherBuilder α) : (b.build s).2.Faithful := by
  unfold MatcherBuilder.build
  cases b.usesCache with
  | false => exact h
  | true =>
    cases b.shared with
    | none => exact h.newCache none
    | some c => exact h

theorem Faithful.apply (h : s.Faithful) (m : Matcher α) (v : Value) :
    (m.apply v s).state.Faithful :=
  (tryArms_eq_anew (resolves_matcher m) v 0 m.arms h).2.2

theorem Faithful.validateArms (h : s.Faithful) (m : Matcher α) (arms : List (Arm α)) :
    (m.validateArms arms s).store.Faithful := by
  induction arms generalizing s with
  | nil => exact h
  | cons arm arms ih =>
    have hstate := (resolves_matcher m).state arm.pattern s h
    rw [Matcher.validateArms]
    dsimp only
    cases (m.resolve arm.pattern s).result with
    | error e => exact hstate
    | ok p => exact ih hstate

/-- Whatever is done, the tables hold only what parsing gives. -/
theorem Faithful.run (h : s.Faithful) (op : CacheOp) : (op.run s).Faithful := by
  cases op with
  | newCache limit => exact h.newCache limit
  | getOrParse c text => exact h.getOrParse c text
  | clear c => exact h.clear c
  | build b => exact h.build b
  | apply m v => exact h.apply m v
  | applyExhaustive m v => exact h.apply m v
  | validate m => exact h.validateArms m m.arms

theorem Faithful.runAll (h : s.Faithful) (ops : List CacheOp) :
    (CacheOp.runAll ops s).Faithful := by
  induction ops generalizing s with
  | nil => exact h
  | cons op ops ih => exact ih (h.run op)

end CacheStore

/-! ### Builders -/

/-- A call of a builder. -/
inductive BuilderCall (α : Type) where
  | cache (enabled : Bool)
  | sharedCache (c : Cache)
  | arm (pattern : String) (handler : Handler α)

namespace BuilderCall

def run : BuilderCall α → MatcherBuilder α → MatcherBuilder α
  | cache enabled, b => b.cache enabled
  | sharedCache c, b => b.sharedCache c
  | arm pattern handler, b => b.arm pattern handler

def runAll (calls : List (BuilderCall α)) (b : MatcherBuilder α) : MatcherBuilder α :=
  calls.foldl (fun b call => call.run b) b

/-- The arm that the call adds. -/
def arm? : BuilderCall α → Option (Arm α)
  | arm pattern handler => some ⟨pattern, handler⟩
  | _ => none

end BuilderCall

/-- The arms of a builder are those that its calls have added, in this order. -/
theorem arms_runAll (calls : List (BuilderCall α)) (b : MatcherBuilder α) :
    (BuilderCall.runAll calls b).arms = b.arms ++ calls.filterMap BuilderCall.arm? := by
  induction calls generalizing b with
  | nil => exact (List.append_nil _).symm
  | cons call calls ih =>
    refine (ih (call.run b)).trans ?_
    cases call with
    | cache enabled => rfl
    | sharedCache c => rfl
    | arm pattern handler => exact List.append_assoc _ _ _

theorem arms_build (b : MatcherBuilder α) (s : CacheStore) : (b.build s).1.arms = b.arms := by
  unfold MatcherBuilder.build
  cases b.usesCache with
  | false => rfl
  | true => cases b.shared <;> rfl

/-! ### Matchers -/

/-- In a faithful store a matcher does what plain dispatch over its arms does. -/
theorem apply_of_faithful (h : s.Faithful) (m : Matcher α) (v : Value) :
    (m.apply v s).result = (dispatch v m.arms).result ∧
      (m.apply v s).consulted = (dispatch v m.arms).consulted := by
  obtain ⟨hresult, hconsulted, -⟩ := tryArms_eq_anew (resolves_matcher m) v 0 m.arms h
  exact ⟨hresult, congrArg ([] ++ ·) hconsulted⟩

/-- **Caching is invisible.** Build a matcher after any history, let anything happen after that, and
it still gives what plain dispatch over its arms gives, after the same guards and callbacks, with
the same error if it must match and does not. -/
theorem apply_eq_dispatch (calls : List (BuilderCall α)) (before after : List CacheOp)
    (v : Value) :
    let built := (BuilderCall.runAll calls {}).build (CacheOp.runAll before {})
    let s := CacheOp.runAll after built.2
    let arms := calls.filterMap BuilderCall.arm?
    (built.1.apply v s).result = (dispatch v arms).result ∧
      (built.1.apply v s).consulted = (dispatch v arms).consulted ∧
      (built.1.applyExhaustive v s).1 = dispatchExhaustive v arms := by
  intro built s arms
  have harms : built.1.arms = arms := by
    rw [arms_build, arms_runAll]
    rfl
  have hstore : s.Faithful :=
    ((CacheStore.faithful_empty.runAll before).build _).runAll after
  obtain ⟨hresult, hconsulted⟩ := apply_of_faithful hstore built.1 v
  rw [harms] at hresult hconsulted
  refine ⟨hresult, hconsulted, ?_⟩
  rw [Matcher.applyExhaustive, dispatchExhaustive, Dispatched.exhaustive, Dispatched.exhaustive,
    harms, hresult]

end Destructure
