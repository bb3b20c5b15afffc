import Destructure.Proofs.Matching.Tests

/-!
# Destructure.Proofs.Matching.Binders

The names that a match binds can be read off its pattern: `tryMatch_names`.

A pattern lists its binders, with repetitions, and a match runs tests. The two agree since the
captures among the tests carry the binders in their order (`Pattern.names_tests`). Bindings keep the
first place of a name and its last value, so a match binds each binder once. A match that fails has
made the captures before the test that failed, and these carry a first part of the binders
(`names_runTests`).
-/

namespace Destructure

/-! ### Binders are the names of captures -/

/-- The name that a component gets. -/
def Test.name? (t : Test) : Option String :=
  match t.check with
  | .capture name => some name
  | _ => none

theorem names_under (s : Selector) (ts : List Test) :
    (ts.map (Test.under s)).filterMap Test.name? = ts.filterMap Test.name? := by
  rw [List.filterMap_map]
  rfl

mutual

/-- The names of the captures among the tests of a pattern are its binders. -/
theorem Pattern.names_tests (p : Pattern) : p.tests.filterMap Test.name? = p.binders := by
  cases p with
  | array elements => exact Pattern.names_testsList .item 0 elements
  | object entries => exact Entry.names_testsList entries
  | tagged name arguments => exact arguments.names_tests name
  | _ => rfl

theorem Pattern.names_testsList (select : Nat → Selector) (i : Nat) (ps : List Pattern) :
    (Pattern.testsList select i ps).filterMap Test.name? = Pattern.bindersList ps := by
  cases ps with
  | nil => rfl
  | cons p ps =>
    rw [Pattern.testsList, List.filterMap_append, names_under, p.names_tests,
      Pattern.names_testsList select (i + 1) ps, Pattern.bindersList]

theorem Entry.names_tests (e : Entry) : e.tests.filterMap Test.name? = e.binders := by
  cases e with
  | shorthand key => rfl
  | explicit key p =>
    have hsub := (names_under (.property key) p.tests).trans p.names_tests
    exact hsub

theorem Entry.names_testsList (es : List Entry) :
    (Entry.testsList es).filterMap Test.name? = Entry.bindersList es := by
  cases es with
  | nil => rfl
  | cons e es =>
    rw [Entry.testsList, List.filterMap_append, e.names_tests, Entry.names_testsList es,
      Entry.bindersList]

theorem Arguments.names_tests (as : Arguments) (name : String) :
    (as.tests name).filterMap Test.name? = as.binders := by
  cases as with
  | unspecified => rfl
  | positional elements => exact Pattern.names_testsList .argument 0 elements
  | keyed entries => exact Entry.names_testsList entries

end

/-! ### Names of a run -/

variable {v : Value} {ts : List Test} {b : Bindings}

/-- The captures of a run have the names that its tests give. -/
theorem names_of_captures {captures : List (String × Value)}
    (h : List.Forall₂ (Test.Captures v) (ts.filter Test.isCapture) captures) :
    captures.map (·.1) = ts.filterMap Test.name? := by
  induction ts generalizing captures with
  | nil =>
    cases h
    rfl
  | cons t ts ih =>
    obtain ⟨path, check⟩ := t
    cases check with
    | capture name =>
      rw [List.filter_cons_of_pos rfl] at h
      cases h with
      | @cons _ c _ captures hc hall =>
        have hname : Test.name? ⟨path, .capture name⟩ = some c.1 :=
          congrArg some (Check.capture.inj hc.1)
        rw [List.map_cons, ih hall, List.filterMap_cons_some hname]
    | _ =>
      rw [List.filter_cons_of_neg Bool.false_ne_true] at h
      rw [List.filterMap_cons_none rfl]
      exact ih h

/-- However a run ends, what it has bound are captures from the front of the tests. -/
theorem names_runTests (v : Value) (ts : List Test) (b : Bindings) :
    ∃ captures : List (String × Value), (runTests v ts b).2 = b.insertAll captures ∧
      captures.map (·.1) <+: ts.filterMap Test.name? := by
  induction ts generalizing b with
  | nil => exact ⟨[], rfl, List.nil_prefix⟩
  | cons t ts ih =>
    rw [runTests]
    by_cases ht : t.holds v = true
    · rw [if_pos ht]
      obtain ⟨captures, hrun, hprefix⟩ := ih (t.bind v b)
      obtain ⟨path, check⟩ := t
      cases check with
      | capture name =>
        obtain ⟨w, hw, -⟩ := (Option.any_eq_true _ _).1 ht
        have hbind : Test.bind v ⟨path, .capture name⟩ b = b.insert name w := by
          simp only [Test.bind, hw]
        have hname : Test.name? ⟨path, .capture name⟩ = some name := rfl
        refine ⟨(name, w) :: captures, hrun.trans (by rw [hbind]; rfl), ?_⟩
        rw [List.filterMap_cons_some hname]
        exact List.cons_prefix_cons.2 ⟨rfl, hprefix⟩
      | _ =>
        rw [List.filterMap_cons_none rfl]
        exact ⟨captures, hrun, hprefix⟩
    · rw [if_neg ht]
      exact ⟨[], rfl, List.nil_prefix⟩

theorem tryMatch_eq_runTests (p : Pattern) (v : Value) :
    p.tryMatch v = (runTests v p.tests .empty).1.map fun matched =>
      if matched then some (runTests v p.tests .empty).2 else none := by
  rw [← matchInto_eq_runTests]
  rfl

/-- What a match binds is what its captures make. -/
theorem captures_of_tryMatch {p : Pattern} (h : p.tryMatch v = .ok (some b)) :
    ∃ captures, List.Forall₂ (Test.Captures v) (p.tests.filter Test.isCapture) captures ∧
      b = .ofList captures := by
  have hspec := runTests_spec v p.tests .empty
  rw [tryMatch_eq_runTests] at h
  cases hfind : p.tests.find? (fun t => !t.holds v) with
  | none =>
    rw [hfind] at hspec
    obtain ⟨captures, hall, hrun⟩ := hspec
    rw [hrun] at h
    exact ⟨captures, hall, (Option.some.inj (Except.ok.inj h)).symm⟩
  | some t =>
    rw [hfind] at hspec
    dsimp only at hspec
    rw [hspec] at h
    unfold Test.failure at h
    split at h <;> cases h

/-- **A match binds the binders of its pattern**: each name once, where the pattern has it first,
and to the component that is captured under it last, which is the first one found from the end. If
the match fails, a first part of the binders has been bound. -/
theorem tryMatch_names (p : Pattern) (v : Value) :
    (∀ b, p.tryMatch v = .ok (some b) →
      b.names = p.binders.eraseDups ∧
        ∃ captures, List.Forall₂ (Test.Captures v) (p.tests.filter Test.isCapture) captures ∧
          captures.map (·.1) = p.binders ∧
          ∀ name, b.get? name = Properties.lookup name captures.reverse) ∧
      ((p.matchInto v .empty).1 ≠ .ok true →
        ∃ bound, bound <+: p.binders ∧ (p.matchInto v .empty).2.names = bound.eraseDups) := by
  constructor
  · intro b h
    obtain ⟨captures, hall, rfl⟩ := captures_of_tryMatch h
    have hnames := (names_of_captures hall).trans p.names_tests
    refine ⟨?_, captures, hall, hnames, Bindings.get?_ofList captures⟩
    rw [Bindings.ofList, Bindings.names_insertAll, hnames]
    rfl
  · intro _
    obtain ⟨captures, hrun, hprefix⟩ := names_runTests v p.tests .empty
    refine ⟨captures.map (·.1), p.names_tests ▸ hprefix, ?_⟩
    rw [matchInto_eq_runTests, hrun, Bindings.names_insertAll]
    rfl

theorem tryMatch_names_of_repeated_binder :
    (∃ b, (Pattern.array [.binder "x", .binder "y", .binder "x"]).tryMatch
          (.array ⟨0⟩ [.null, .undefined, .bool true]) = .ok (some b) ∧ b.names = ["x", "y"]) ∧
      ∃ bound, bound <+: ["x", "y"] ∧
        ((Pattern.array [.binder "x", .constant .null, .binder "y"]).matchInto
          (.array ⟨0⟩ [.null, .undefined, .bool true]) .empty).2.names = bound.eraseDups := by
  constructor
  · have hmatch : (Pattern.array [.binder "x", .binder "y", .binder "x"]).tryMatch
        (.array ⟨0⟩ [.null, .undefined, .bool true]) =
          .ok (some (.ofList [("x", .null), ("y", .undefined), ("x", .bool true)])) := rfl
    exact ⟨_, hmatch, ((tryMatch_names _ _).1 _ hmatch).1⟩
  · have hmiss : ((Pattern.array [.binder "x", .constant .null, .binder "y"]).matchInto
        (.array ⟨0⟩ [.null, .undefined, .bool true]) .empty).1 = .ok false := rfl
    exact (tryMatch_names _ _).2 (by rw [hmiss]; decide)

end Destructure
