import Destructure.Matching.Basic
import Destructure.Proofs.Matching.Insertions
import Mathlib.Data.List.Basic

/-!
# Destructure.Proofs.Matching.Tests

A pattern as a flat list of tests, each about one component of the value. Matching runs through the
list from left to right until a test fails, and then that test alone tells how the match ends:
`tryMatch_eq_first_failure`.

Proof shape:

* The tests of a pattern are about the value that stands where the pattern stands. `Test.under`
  shows them from one level up, and by `runTests_under` a run is the same from there.
* `runTests_append` cuts a run in two. With it each case of `Pattern.result_attempt` is a few tests
  of its own and the tests of the parts.
* What a run yields is found on the list alone, by `runTests_spec`; patterns play no part there.
-/

namespace Destructure

/-! ### Components of a value -/

/-- One step from a value into it. -/
inductive Selector where
  | item (index : Nat)
  | property (key : String)
  /-- A constructor argument of an instance. -/
  | argument (index : Nat)
  deriving DecidableEq, Repr

/-- The component that one step leads to. -/
def Value.part? : Selector → Value → Option Value
  | .item i, .array _ items => items[i]?
  | .property key, v => v.property? key
  | .argument i, .inst _ _ arguments _ => arguments[i]?
  | _, _ => none

/-- The component at the end of a path. -/
def Value.component? (v : Value) : List Selector → Option Value
  | [] => some v
  | s :: path => (v.part? s).bind (·.component? path)

/-! ### Tests -/

/-- What a test asks of a component. -/
inductive Check where
  | isArray
  | hasItems (count : Nat)
  /-- Is it an array, an object or an instance? -/
  | isKeyed
  | hasProperty (key : String)
  | hasTag (name : String)
  /-- Did a case class make it? Its type tag is `typeName`. -/
  | isInstance (typeName : String)
  | hasArguments (count : Nat)
  | equals (literal : Value)
  /-- No question: the component gets a name. -/
  | capture (name : String)

def Check.holds : Check → Value → Bool
  | .isArray, .array _ _ => true
  | .hasItems n, .array _ items => n == items.length
  | .isKeyed, v => v.isKeyed
  | .hasProperty key, v => (v.property? key).isSome
  | .hasTag name, v => v.typeTag? == some name
  | .isInstance _, .inst _ _ _ _ => true
  | .hasArguments n, .inst _ _ arguments _ => n == arguments.length
  | .equals literal, v => v.strictEq literal
  | .capture _, _ => true
  | _, _ => false

/-- A check of the component at a path. -/
structure Test where
  path : List Selector
  check : Check

namespace Test

/-- The test, seen from one step further out. -/
def under (s : Selector) (t : Test) : Test := ⟨s :: t.path, t.check⟩

/-- Is the component there, and does it pass? -/
def holds (v : Value) (t : Test) : Bool := (v.component? t.path).any t.check.holds

def isCapture (t : Test) : Bool :=
  match t.check with
  | .capture _ => true
  | _ => false

/-- Bind the component, if it is to get a name. -/
def bind (v : Value) (t : Test) (b : Bindings) : Bindings :=
  match t.check, v.component? t.path with
  | .capture name, some w => b.insert name w
  | _, _ => b

/-- How a match ends that fails at this test: `miss` stands for a value that does not match. -/
def failure {α : Type} (t : Test) (miss : α) : Except MatchError α :=
  match t.check with
  | .isInstance typeName => .error (.notCaseClass typeName)
  | _ => .ok miss

end Test

/-- The check of the value itself. -/
def Check.here (check : Check) : Test := ⟨[], check⟩

mutual

/-- The tests of a pattern, from the outside in and from left to right. -/
def Pattern.tests : Pattern → List Test
  | .array elements =>
    Check.isArray.here :: (Check.hasItems elements.length).here ::
      Pattern.testsList .item 0 elements
  | .object entries => Check.isKeyed.here :: Entry.testsList entries
  | .tagged name arguments => (Check.hasTag name).here :: arguments.tests name
  | .binder name => [(Check.capture name).here]
  | .constant c => [(Check.equals (.ofConstant c)).here]
  | .number d => [(Check.equals (.number d)).here]
  | .string s => [(Check.equals (.string s)).here]
  | .wildcard | .blank => []

/-- The tests of patterns for the components that `select` leads to, from index `i` on. -/
def Pattern.testsList (select : Nat → Selector) (i : Nat) : List Pattern → List Test
  | [] => []
  | p :: ps => p.tests.map (Test.under (select i)) ++ Pattern.testsList select (i + 1) ps

/-- The tests of an entry. -/
def Entry.tests : Entry → List Test
  | .shorthand key =>
    [(Check.hasProperty key).here, (Check.capture key).here.under (.property key)]
  | .explicit key p => (Check.hasProperty key).here :: p.tests.map (Test.under (.property key))

/-- The tests of entries, one after the other. -/
def Entry.testsList : List Entry → List Test
  | [] => []
  | e :: es => e.tests ++ Entry.testsList es

/-- The tests of the arguments of a value with the type tag `name`. -/
def Arguments.tests (name : String) : Arguments → List Test
  | .unspecified => []
  | .positional elements =>
    (Check.isInstance name).here :: (Check.hasArguments elements.length).here ::
      Pattern.testsList .argument 0 elements
  | .keyed entries => Check.isKeyed.here :: Entry.testsList entries

end

/-- Run tests from left to right, up to the first one that fails. -/
def runTests (v : Value) : List Test → Bindings → Except MatchError Bool × Bindings
  | [], b => (.ok true, b)
  | t :: ts, b => if t.holds v then runTests v ts (t.bind v b) else (t.failure false, b)

/-! ### Runs -/

variable {v w : Value} {ts us : List Test} {b : Bindings}

theorem failure_ne_matched (t : Test) : t.failure false ≠ .ok true := by
  unfold Test.failure
  split <;> simp

/-- The second part of a list of tests is run only if all tests of the first part hold. -/
theorem runTests_append :
    runTests v (ts ++ us) b =
      if (runTests v ts b).1 = .ok true then runTests v us (runTests v ts b).2
      else runTests v ts b := by
  induction ts generalizing b with
  | nil => simp [runTests]
  | cons t ts ih =>
    rw [List.cons_append, runTests, runTests]
    by_cases ht : t.holds v = true
    · rw [if_pos ht, if_pos ht, ih]
    · rw [if_neg ht, if_neg ht, if_neg (failure_ne_matched t)]

theorem holds_under {s : Selector} (h : v.part? s = some w) (t : Test) :
    (t.under s).holds v = t.holds w := by
  simp [Test.holds, Test.under, Value.component?, h]

theorem bind_under {s : Selector} (h : v.part? s = some w) (t : Test) :
    (t.under s).bind v b = t.bind w b := by
  simp [Test.bind, Test.under, Value.component?, h]

/-- A run on a component is a run on the whole value, seen from one step further out. -/
theorem runTests_under {s : Selector} (h : v.part? s = some w) :
    runTests v (ts.map (Test.under s)) b = runTests w ts b := by
  induction ts generalizing b with
  | nil => rfl
  | cons t ts ih =>
    rw [List.map_cons, runTests, runTests, holds_under h, bind_under h, ih]
    rfl

theorem runTests_here_pos {check : Check} (hbind : check.here.bind v b = b)
    (h : check.holds v = true) : runTests v (check.here :: ts) b = runTests v ts b := by
  have hholds : check.here.holds v = true := h
  rw [runTests, if_pos hholds, hbind]

theorem runTests_here_neg {check : Check} (h : check.holds v = false) :
    runTests v (check.here :: ts) b = (check.here.failure false, b) := by
  have hholds : ¬ check.here.holds v = true := by
    rw [Bool.not_eq_true]
    exact h
  rw [runTests, if_neg hholds]

/-! ### What a run yields -/

/-- The capture `c` is the component that the test gives a name. -/
def Test.Captures (v : Value) (t : Test) (c : String × Value) : Prop :=
  t.check = .capture c.1 ∧ v.component? t.path = some c.2

theorem bind_of_not_isCapture {t : Test} (h : t.isCapture = false) : t.bind v b = b := by
  unfold Test.isCapture at h
  unfold Test.bind
  split
  · rename_i hcheck _
    simp [hcheck] at h
  · rfl

/-- A capture that holds binds the component that it is about. -/
theorem exists_captures {t : Test} (h : t.isCapture = true) (ht : t.holds v = true) :
    ∃ c, t.Captures v c ∧ ∀ b, t.bind v b = b.insert c.1 c.2 := by
  obtain ⟨path, check⟩ := t
  cases check with
  | capture name =>
    obtain ⟨w, hw, -⟩ := (Option.any_eq_true _ _).1 ht
    refine ⟨(name, w), ⟨rfl, hw⟩, fun b => ?_⟩
    simp only [Test.bind, hw]
  | _ => exact absurd h Bool.false_ne_true

/-- If all tests hold, all captures are bound in their order, and if not, the first test that fails
decides. -/
theorem runTests_spec (v : Value) (ts : List Test) (b : Bindings) :
    match ts.find? (fun t => !t.holds v) with
    | none => ∃ captures, List.Forall₂ (Test.Captures v) (ts.filter Test.isCapture) captures ∧
        runTests v ts b = (.ok true, b.insertAll captures)
    | some t => (runTests v ts b).1 = t.failure false := by
  induction ts generalizing b with
  | nil => exact ⟨[], .nil, rfl⟩
  | cons t ts ih =>
    by_cases ht : t.holds v = true
    · rw [List.find?_cons_of_neg (by simp [ht]), runTests, if_pos ht]
      have ih := ih (t.bind v b)
      cases hfind : ts.find? (fun t => !t.holds v) with
      | some u =>
        rw [hfind] at ih
        exact ih
      | none =>
        rw [hfind] at ih
        obtain ⟨captures, hall, hrun⟩ := ih
        cases hcap : t.isCapture with
        | true =>
          obtain ⟨c, hc, hbind⟩ := exists_captures hcap ht
          refine ⟨c :: captures, ?_, ?_⟩
          · rw [List.filter_cons_of_pos hcap]
            exact .cons hc hall
          · rw [hrun, hbind]
            rfl
        | false =>
          refine ⟨captures, ?_, ?_⟩
          · rw [List.filter_cons_of_neg (by simp [hcap])]
            exact hall
          · rw [hrun, bind_of_not_isCapture hcap]
    · rw [List.find?_cons_of_pos (by simp [ht]), runTests, if_neg ht]

/-! ### Matching is a run -/

/-- What an attempt tells its caller. -/
def Attempt.result (a : Attempt) : Except MatchError Bool × Bindings := (a.outcome, a.bindings)

/-- Two attempts in sequence are runs in sequence. -/
theorem result_andThen {a : Attempt} {next : Bindings → Attempt}
    (ha : a.result = runTests v ts b) (hnext : ∀ b, (next b).result = runTests v us b) :
    (a.andThen next).result = runTests v (ts ++ us) b := by
  rw [runTests_append, ← ha]
  obtain ⟨verdict, b'⟩ := a
  cases verdict with
  | matched => exact (hnext b').trans (if_pos rfl).symm
  | mismatch why => exact (if_neg (by simp [Attempt.result, Attempt.outcome])).symm
  | misuse typeName => exact (if_neg (by simp [Attempt.result, Attempt.outcome])).symm

/-- A check that decides on its own whether an attempt goes on. -/
theorem result_ite {check : Check} {cond : Prop} [Decidable cond] {a : Attempt} {verdict : Verdict}
    (hholds : check.holds v = true ↔ cond) (hbind : check.here.bind v b = b)
    (hfail : (Attempt.mk verdict b).outcome = check.here.failure false)
    (ha : cond → a.result = runTests v ts b) :
    (if cond then a else ⟨verdict, b⟩).result = runTests v (check.here :: ts) b := by
  by_cases hcond : cond
  · rw [if_pos hcond, runTests_here_pos hbind (hholds.2 hcond), ha hcond]
  · have hcheck : check.holds v = false := Bool.eq_false_iff.2 (mt hholds.1 hcond)
    rw [if_neg hcond, runTests_here_neg hcheck, ← hfail]
    rfl

theorem result_test {literal : Value} :
    (Attempt.test (v.strictEq literal) .otherLiteral b).result =
      runTests v [(Check.equals literal).here] b := by
  rw [Attempt.test]
  cases h : v.strictEq literal with
  | true =>
    have hcheck : (Check.equals literal).holds v = true := h
    rw [runTests_here_pos rfl hcheck]
    rfl
  | false =>
    have hcheck : (Check.equals literal).holds v = false := h
    rw [runTests_here_neg hcheck]
    rfl

mutual

/-- An attempt to match a pattern is a run of its tests. -/
theorem Pattern.result_attempt (p : Pattern) (v : Value) (b : Bindings) :
    (p.attempt v b).result = runTests v p.tests b := by
  cases p with
  | array elements =>
    rw [Pattern.tests]
    cases v with
    | array identity items =>
      have harray : Check.isArray.holds (.array identity items) = true := rfl
      rw [runTests_here_pos rfl harray, Pattern.attempt]
      refine result_ite beq_iff_eq rfl rfl fun hlen => ?_
      refine Pattern.result_attemptList elements items _ .item 0 hlen (fun j => ?_) b
      rw [Nat.zero_add]
      rfl
    | _ => rfl
  | object entries =>
    rw [Pattern.tests, Pattern.attempt]
    exact result_ite Iff.rfl rfl rfl fun _ => Entry.result_attemptList entries v b
  | tagged name arguments =>
    rw [Pattern.tests, Pattern.attempt]
    exact result_ite beq_iff_eq rfl rfl fun _ => arguments.result_attempt name v b
  | binder name => rfl
  | constant c => exact result_test
  | number d => exact result_test
  | string s => exact result_test
  | wildcard => rfl
  | blank => rfl

/-- Elements are matched against the components that `select` leads to. -/
theorem Pattern.result_attemptList (ps : List Pattern) (vs : List Value) (v : Value)
    (select : Nat → Selector) (i : Nat) (hlen : ps.length = vs.length)
    (hpart : ∀ j, v.part? (select (i + j)) = vs[j]?) (b : Bindings) :
    (Pattern.attemptList ps vs b).result = runTests v (Pattern.testsList select i ps) b := by
  cases ps with
  | nil => rfl
  | cons p ps =>
    cases vs with
    | nil => exact absurd hlen (Nat.succ_ne_zero _)
    | cons w vs =>
      rw [Pattern.attemptList, Pattern.testsList]
      refine result_andThen ?_ fun b => ?_
      · have hw : v.part? (select i) = some w := hpart 0
        rw [runTests_under hw]
        exact p.result_attempt w b
      · refine Pattern.result_attemptList ps vs v select (i + 1) (Nat.succ.inj hlen) (fun j => ?_) b
        rw [Nat.add_assoc, Nat.add_comm 1 j]
        exact hpart (j + 1)

theorem Entry.result_attempt (e : Entry) (v : Value) (b : Bindings) :
    (e.attempt v b).result = runTests v e.tests b := by
  cases e with
  | shorthand key =>
    rw [Entry.attempt, Entry.tests]
    cases hkey : v.property? key with
    | none =>
      have hcheck : (Check.hasProperty key).holds v = false :=
        Option.isSome_eq_false_iff.2 (Option.isNone_iff_eq_none.2 hkey)
      rw [runTests_here_neg hcheck]
      rfl
    | some w =>
      have hcheck : (Check.hasProperty key).holds v = true := Option.isSome_of_eq_some hkey
      rw [runTests_here_pos rfl hcheck]
      have hpart : v.part? (.property key) = some w := hkey
      have hcapture : runTests v ([(Check.capture key).here].map (Test.under (.property key))) b =
          runTests w [(Check.capture key).here] b := runTests_under hpart
      exact hcapture.symm
  | explicit key p =>
    rw [Entry.attempt, Entry.tests]
    cases hkey : v.property? key with
    | none =>
      have hcheck : (Check.hasProperty key).holds v = false :=
        Option.isSome_eq_false_iff.2 (Option.isNone_iff_eq_none.2 hkey)
      rw [runTests_here_neg hcheck]
      rfl
    | some w =>
      have hcheck : (Check.hasProperty key).holds v = true := Option.isSome_of_eq_some hkey
      rw [runTests_here_pos rfl hcheck]
      have hpart : v.part? (.property key) = some w := hkey
      rw [runTests_under hpart]
      exact p.result_attempt w b

theorem Entry.result_attemptList (es : List Entry) (v : Value) (b : Bindings) :
    (Entry.attemptList es v b).result = runTests v (Entry.testsList es) b := by
  cases es with
  | nil => rfl
  | cons e es =>
    rw [Entry.attemptList, Entry.testsList]
    exact result_andThen (e.result_attempt v b) (Entry.result_attemptList es v)

theorem Arguments.result_attempt (as : Arguments) (name : String) (v : Value) (b : Bindings) :
    (as.attempt name v b).result = runTests v (as.tests name) b := by
  cases as with
  | unspecified => rfl
  | positional elements =>
    rw [Arguments.tests]
    cases v with
    | inst identity cls arguments properties =>
      have hinst : (Check.isInstance name).holds (.inst identity cls arguments properties) = true :=
        rfl
      rw [runTests_here_pos rfl hinst, Arguments.attempt]
      refine result_ite beq_iff_eq rfl rfl fun hlen => ?_
      refine Pattern.result_attemptList elements arguments _ .argument 0 hlen (fun j => ?_) b
      rw [Nat.zero_add]
      rfl
    | _ => rfl
  | keyed entries =>
    rw [Arguments.tests, Arguments.attempt]
    exact result_ite Iff.rfl rfl rfl fun _ => Entry.result_attemptList entries v b

end

/-- Matching is a run of the tests of the pattern. -/
theorem matchInto_eq_runTests (p : Pattern) (v : Value) (b : Bindings) :
    p.matchInto v b = runTests v p.tests b :=
  p.result_attempt v b

/-- **Matching goes by the first test that fails.** If none does, the captures are bound one after
the other, each to the very component at its path: the names are those of the captures, in the order
of their first ones, and the last capture under a name gives its value. -/
theorem tryMatch_eq_first_failure (p : Pattern) (v : Value) :
    match p.tests.find? (fun t => !t.holds v) with
    | none => ∃ captures b,
        List.Forall₂ (Test.Captures v) (p.tests.filter Test.isCapture) captures ∧
        p.tryMatch v = .ok (some b) ∧ b = .ofList captures ∧
        ListsFirst b.names (captures.map (·.1)) ∧
        ∀ name, b.get? name = Properties.lookup name captures.reverse
    | some t => p.tryMatch v = t.failure none := by
  have hmatch : p.tryMatch v = (runTests v p.tests .empty).1.map fun matched =>
      if matched then some (runTests v p.tests .empty).2 else none := by
    rw [← matchInto_eq_runTests]
    rfl
  have hspec := runTests_spec v p.tests .empty
  cases hfind : p.tests.find? (fun t => !t.holds v) with
  | none =>
    rw [hfind] at hspec
    obtain ⟨captures, hall, hrun⟩ := hspec
    refine ⟨captures, .ofList captures, hall, ?_, rfl, Bindings.listsFirst_ofList captures,
      Bindings.get?_ofList captures⟩
    rw [hmatch, hrun]
    rfl
  | some t =>
    rw [hfind] at hspec
    dsimp only at hspec ⊢
    rw [hmatch, hspec]
    unfold Test.failure
    split <;> rfl

end Destructure
