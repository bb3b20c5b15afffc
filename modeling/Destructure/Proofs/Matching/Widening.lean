import Destructure.Proofs.Matching.Binders
import Mathlib.Logic.Relation

/-!
# Destructure.Proofs.Matching.Widening

A pattern that asks for less matches no fewer values: `tryMatch_of_widens`.

`Pattern.WidensTo` is one way to ask for less, anywhere inside a pattern: some part of it becomes a
wildcard or a blank, entries are left out or change places, or constructor arguments are not looked
at. Widening may be repeated, so the law is about `Relation.ReflTransGen Pattern.WidensTo`.

Proof shape: which test fails first depends on the order of the tests, but whether all of them hold
does not (`exists_tryMatch_iff`). So it is enough that a wider pattern has no test of its own
(`Pattern.WidensTo.tests_subset`). The same goes for captures: as long as no name is bound twice,
the value of a name is the component that some test captures under it, wherever that test stands
(`get?_of_captures`).
-/

namespace Destructure

/-! ### Asking for less -/

mutual

/-- The second pattern asks for one thing less than the first. -/
inductive Pattern.WidensTo : Pattern → Pattern → Prop where
  | wildcard {p : Pattern} : Pattern.WidensTo p .wildcard
  | blank {p : Pattern} : Pattern.WidensTo p .blank
  | array {ps qs : List Pattern} : Pattern.WidensToList ps qs →
      Pattern.WidensTo (.array ps) (.array qs)
  | object {es fs : List Entry} : Entry.WidensToList es fs →
      Pattern.WidensTo (.object es) (.object fs)
  | tagged {name : String} {as bs : Arguments} : Arguments.WidensTo as bs →
      Pattern.WidensTo (.tagged name as) (.tagged name bs)

/-- One of the patterns is widened. -/
inductive Pattern.WidensToList : List Pattern → List Pattern → Prop where
  | head {p q : Pattern} {ps : List Pattern} : Pattern.WidensTo p q →
      Pattern.WidensToList (p :: ps) (q :: ps)
  | tail {p : Pattern} {ps qs : List Pattern} : Pattern.WidensToList ps qs →
      Pattern.WidensToList (p :: ps) (p :: qs)

/-- One of the entries is left out or has its pattern widened, or the entries change places. -/
inductive Entry.WidensToList : List Entry → List Entry → Prop where
  | delete {e : Entry} {es : List Entry} : Entry.WidensToList (e :: es) es
  | permute {es fs : List Entry} : es.Perm fs → Entry.WidensToList es fs
  | head {key : String} {p q : Pattern} {es : List Entry} : Pattern.WidensTo p q →
      Entry.WidensToList (.explicit key p :: es) (.explicit key q :: es)
  | tail {e : Entry} {es fs : List Entry} : Entry.WidensToList es fs →
      Entry.WidensToList (e :: es) (e :: fs)

/-- Nothing is asked of the arguments, or what is asked of them is widened. -/
inductive Arguments.WidensTo : Arguments → Arguments → Prop where
  | drop {as : Arguments} : Arguments.WidensTo as .unspecified
  | positional {ps qs : List Pattern} : Pattern.WidensToList ps qs →
      Arguments.WidensTo (.positional ps) (.positional qs)
  | keyed {es fs : List Entry} : Entry.WidensToList es fs →
      Arguments.WidensTo (.keyed es) (.keyed fs)

end

theorem Pattern.WidensToList.length_eq {ps qs : List Pattern} (h : Pattern.WidensToList ps qs) :
    qs.length = ps.length := by
  cases h with
  | head _ => rfl
  | tail h => exact congrArg Nat.succ h.length_eq

/-! ### No test is new -/

theorem Entry.testsList_eq_flatMap (es : List Entry) :
    Entry.testsList es = es.flatMap Entry.tests := by
  induction es with
  | nil => rfl
  | cons e es ih => rw [Entry.testsList, List.flatMap_cons, ih]

theorem append_subset_append {α : Type} {ps qs ps' qs' : List α} (hp : ps ⊆ ps') (hq : qs ⊆ qs') :
    ps ++ qs ⊆ ps' ++ qs' :=
  List.append_subset.2 ⟨List.subset_append_of_subset_left _ hp,
    List.subset_append_of_subset_right _ hq⟩

mutual

/-- A wider pattern has no test that the narrower one lacks. -/
theorem Pattern.WidensTo.tests_subset {p q : Pattern} (h : p.WidensTo q) :
    q.tests ⊆ p.tests := by
  cases h with
  | wildcard => exact List.nil_subset _
  | blank => exact List.nil_subset _
  | array hlist =>
    rw [Pattern.tests, Pattern.tests, hlist.length_eq]
    exact List.cons_subset_cons _ (List.cons_subset_cons _ (hlist.tests_subset .item 0))
  | object hlist =>
    rw [Pattern.tests, Pattern.tests]
    exact List.cons_subset_cons _ hlist.tests_subset
  | tagged has =>
    rw [Pattern.tests, Pattern.tests]
    exact List.cons_subset_cons _ (has.tests_subset _)

theorem Pattern.WidensToList.tests_subset {ps qs : List Pattern} (h : Pattern.WidensToList ps qs)
    (select : Nat → Selector) (i : Nat) :
    Pattern.testsList select i qs ⊆ Pattern.testsList select i ps := by
  cases h with
  | head hp =>
    rw [Pattern.testsList, Pattern.testsList]
    exact append_subset_append (List.map_subset _ hp.tests_subset) (List.Subset.refl _)
  | tail hps =>
    rw [Pattern.testsList, Pattern.testsList]
    exact append_subset_append (List.Subset.refl _) (hps.tests_subset select (i + 1))

theorem Entry.WidensToList.tests_subset {es fs : List Entry} (h : Entry.WidensToList es fs) :
    Entry.testsList fs ⊆ Entry.testsList es := by
  cases h with
  | delete =>
    rw [Entry.testsList]
    exact List.subset_append_right _ _
  | permute hperm =>
    rw [Entry.testsList_eq_flatMap, Entry.testsList_eq_flatMap]
    exact (hperm.symm.flatMap_right Entry.tests).subset
  | head hp =>
    rw [Entry.testsList, Entry.testsList, Entry.tests, Entry.tests]
    exact append_subset_append (List.cons_subset_cons _ (List.map_subset _ hp.tests_subset))
      (List.Subset.refl _)
  | tail hes =>
    rw [Entry.testsList, Entry.testsList]
    exact append_subset_append (List.Subset.refl _) hes.tests_subset

theorem Arguments.WidensTo.tests_subset {as bs : Arguments} (h : as.WidensTo bs) (name : String) :
    bs.tests name ⊆ as.tests name := by
  cases h with
  | drop => exact List.nil_subset _
  | positional hlist =>
    rw [Arguments.tests, Arguments.tests, hlist.length_eq]
    exact List.cons_subset_cons _ (List.cons_subset_cons _ (hlist.tests_subset .argument 0))
  | keyed hlist =>
    rw [Arguments.tests, Arguments.tests]
    exact List.cons_subset_cons _ hlist.tests_subset

end

theorem tests_subset_of_widens {p q : Pattern} (h : Relation.ReflTransGen Pattern.WidensTo p q) :
    q.tests ⊆ p.tests := by
  induction h with
  | refl => exact List.Subset.refl _
  | tail _ hstep ih => exact List.Subset.trans hstep.tests_subset ih

/-! ### Matches in no order -/

variable {p : Pattern} {v : Value} {b : Bindings}

/-- A value matches if it passes all tests, in whatever order. -/
theorem exists_tryMatch_iff :
    (∃ b, p.tryMatch v = .ok (some b)) ↔ ∀ t ∈ p.tests, t.holds v = true := by
  have hspec := runTests_spec v p.tests .empty
  rw [tryMatch_eq_runTests]
  cases hfind : p.tests.find? (fun t => !t.holds v) with
  | none =>
    rw [hfind] at hspec
    obtain ⟨captures, -, hrun⟩ := hspec
    rw [hrun]
    constructor
    · intro _
      simpa using hfind
    · intro _
      exact ⟨_, rfl⟩
  | some t =>
    rw [hfind] at hspec
    dsimp only at hspec
    rw [hspec]
    constructor
    · rintro ⟨b, h⟩
      unfold Test.failure at h
      split at h <;> cases h
    · intro hall
      have hfails := List.find?_some hfind
      simp [hall t (List.mem_of_find?_eq_some hfind)] at hfails

theorem exists_of_forall₂ {α β : Type} {R : α → β → Prop} {xs : List α} {ys : List β}
    (h : List.Forall₂ R xs ys) :
    (∀ x ∈ xs, ∃ y ∈ ys, R x y) ∧ ∀ y ∈ ys, ∃ x ∈ xs, R x y := by
  induction h with
  | nil => simp
  | cons hxy _ ih =>
    obtain ⟨hleft, hright⟩ := ih
    constructor
    · intro x hx
      rcases List.mem_cons.1 hx with rfl | hx
      · exact ⟨_, List.mem_cons_self, hxy⟩
      · obtain ⟨y, hy, hR⟩ := hleft x hx
        exact ⟨y, List.mem_cons_of_mem _ hy, hR⟩
    · intro y hy
      rcases List.mem_cons.1 hy with rfl | hy
      · exact ⟨_, List.mem_cons_self, hxy⟩
      · obtain ⟨x, hx, hR⟩ := hright y hy
        exact ⟨x, List.mem_cons_of_mem _ hx, hR⟩

/-- What is bound are captures of the pattern. -/
theorem exists_captures_of_get? (h : p.tryMatch v = .ok (some b)) {name : String} {w : Value}
    (hget : b.get? name = some w) : ∃ t ∈ p.tests, t.Captures v (name, w) := by
  obtain ⟨captures, hall, rfl⟩ := captures_of_tryMatch h
  have hlookup : Properties.lookup name captures.reverse = some w := by
    rw [← Bindings.get?_ofList]
    exact hget
  have hmem : (name, w) ∈ captures := List.mem_reverse.1 (mem_of_lookup_eq_some hlookup)
  obtain ⟨t, ht, hcaptures⟩ := (exists_of_forall₂ hall).2 _ hmem
  exact ⟨t, (List.mem_filter.1 ht).1, hcaptures⟩

/-- If no name stands twice in the pattern, all its captures are bound. -/
theorem get?_of_captures (h : p.tryMatch v = .ok (some b)) (hnodup : p.binders.Nodup)
    {t : Test} (ht : t ∈ p.tests) {name : String} {w : Value} (hcaptures : t.Captures v (name, w)) :
    b.get? name = some w := by
  obtain ⟨captures, hall, rfl⟩ := captures_of_tryMatch h
  have hnames : captures.map (·.1) = p.binders := (names_of_captures hall).trans p.names_tests
  have hcapture : t.isCapture = true := by
    unfold Test.isCapture
    rw [hcaptures.1]
  obtain ⟨⟨name', w'⟩, hmem, hcheck, hcomponent⟩ :=
    (exists_of_forall₂ hall).1 t (List.mem_filter.2 ⟨ht, hcapture⟩)
  -- A test captures one component under one name.
  obtain rfl : name = name' := Check.capture.inj (hcaptures.1.symm.trans hcheck)
  obtain rfl : w = w' := Option.some.inj (hcaptures.2.symm.trans hcomponent)
  rw [Bindings.get?_ofList, lookup_reverse name (hnames ▸ hnodup),
    (lookup_eq_some_iff (hnames ▸ hnodup)).2 hmem]

/-- **A pattern that asks for less matches no fewer values.** The match ends neither with a mismatch
nor with misuse, and as long as the pattern has no name twice, every name that the wider one binds
has the same value as before. -/
theorem tryMatch_of_widens {p q : Pattern} (h : Relation.ReflTransGen Pattern.WidensTo p q)
    {v : Value} {b : Bindings} (hmatch : p.tryMatch v = .ok (some b)) :
    ∃ b', q.tryMatch v = .ok (some b') ∧
      (p.binders.Nodup → ∀ name ∈ b'.names, ∃ w, b'.get? name = some w ∧ b.get? name = some w) := by
  have hsubset := tests_subset_of_widens h
  have hholds := exists_tryMatch_iff.1 ⟨b, hmatch⟩
  obtain ⟨b', hmatch'⟩ := exists_tryMatch_iff.2 fun t ht => hholds t (hsubset ht)
  refine ⟨b', hmatch', ?_⟩
  intro hnodup name hname
  obtain ⟨w, hw⟩ := Bindings.mem_names_iff.1 hname
  obtain ⟨t, ht, hcaptures⟩ := exists_captures_of_get? hmatch' hw
  exact ⟨w, hw, get?_of_captures hmatch hnodup (hsubset ht) hcaptures⟩

theorem tryMatch_of_widens_of_object :
    let p : Pattern := .object [.explicit "x" (.array [.binder "a", .constant .null]),
      .shorthand "y", .shorthand "z"]
    let q : Pattern := .object [.shorthand "y", .explicit "x" (.array [.binder "a", .blank])]
    let v : Value := .object ⟨0⟩ none
      [("x", .array ⟨1⟩ [.bool true, .null]), ("y", .undefined), ("z", .null)]
    ∃ b, Relation.ReflTransGen Pattern.WidensTo p q ∧ p.tryMatch v = .ok (some b) ∧
      p.binders.Nodup ∧ ∃ b', q.tryMatch v = .ok (some b') ∧
        ∀ name ∈ b'.names, ∃ w, b'.get? name = some w ∧ b.get? name = some w := by
  intro p q v
  have hblank : p.WidensTo (.object [.explicit "x" (.array [.binder "a", .blank]),
      .shorthand "y", .shorthand "z"]) := .object (.head (.array (.tail (.head .blank))))
  have hdelete : (Pattern.object [.explicit "x" (.array [.binder "a", .blank]), .shorthand "y",
      .shorthand "z"]).WidensTo
        (.object [.explicit "x" (.array [.binder "a", .blank]), .shorthand "y"]) :=
    .object (.tail (.tail .delete))
  have hpermute : (Pattern.object [.explicit "x" (.array [.binder "a", .blank]),
      .shorthand "y"]).WidensTo q := .object (.permute (.swap _ _ _))
  have hwidens : Relation.ReflTransGen Pattern.WidensTo p q :=
    ((Relation.ReflTransGen.single hblank).tail hdelete).tail hpermute
  have hmatch : p.tryMatch v =
      .ok (some (.ofList [("a", .bool true), ("y", .undefined), ("z", .null)])) := rfl
  have hnodup : p.binders.Nodup := by decide
  obtain ⟨b', hmatch', hvalues⟩ := tryMatch_of_widens hwidens hmatch
  exact ⟨_, hwidens, hmatch, hnodup, b', hmatch', hvalues hnodup⟩

end Destructure
