import Destructure.Matching.Basic
import Destructure.Proofs.Value.Lookup
import Destructure.Value.CaseClass
import Mathlib.Data.List.TakeDrop

/-!
# Destructure.Proofs.Matching.Fields

An instance of a class with fields can be taken apart by position and by key, and both come to the
same: `keyed_eq_positional`. By key all fields are there, whatever the instance was made of, while
by position the number of arguments has to be right. So the two agree for an instance that was made
of as many arguments as there are fields, where the other one may have been made of fewer or more.

Proof shape: the fields of an instance are its arguments, cut or padded to their number
(`fieldValues_eq_zip`). Looking a field up finds its argument (`property?_withFields`), so the two
ways of matching look at the same values in the same order (`attemptList_explicit`).
-/

namespace Destructure

open CaseClass (fieldValues withFields)

/-! ### Fields of an instance -/

theorem fieldValues_eq_zip (fields : List String) (arguments : List Value) :
    fieldValues fields arguments = fields.zip (arguments.takeD fields.length .undefined) := by
  induction fields generalizing arguments with
  | nil => rfl
  | cons field fields ih =>
    cases arguments with
    | nil =>
      show (field, Value.undefined) :: fieldValues fields [] = _
      rw [ih]
      rfl
    | cons a arguments =>
      show (field, a) :: fieldValues fields arguments = _
      rw [ih]
      rfl

theorem keys_fieldValues (fields : List String) (arguments : List Value) :
    (fieldValues fields arguments).map (·.1) = fields := by
  rw [fieldValues_eq_zip]
  exact List.map_fst_zip (Nat.le_of_eq (List.takeD_length _ _ _).symm)

variable {name : String} {fields : List String} {s₀ s : Supply}

theorem construct_withFields (arguments : List Value) :
    ((withFields name fields s₀).1.construct arguments s).1 =
      .inst ⟨s.next⟩ ⟨⟨s₀.next⟩, name⟩ arguments
        (Properties.ofList (fieldValues fields arguments)) := rfl

/-- Every field is a property, with the argument at its position as its value. -/
theorem property?_withFields (hnodup : fields.Nodup) {arguments : List Value} {field : String}
    {v : Value} (h : (field, v) ∈ fields.zip (arguments.takeD fields.length .undefined)) :
    ((withFields name fields s₀).1.construct arguments s).1.property? field = some v := by
  have hkeys : ((fieldValues fields arguments).map (·.1)).Nodup := by
    rw [keys_fieldValues]
    exact hnodup
  rw [construct_withFields]
  show Properties.lookup field (Properties.ofList (fieldValues fields arguments)) = some v
  rw [lookup_ofList, lookup_reverse field hkeys, lookup_eq_some_iff hkeys, fieldValues_eq_zip]
  exact h

/-! ### Two ways of matching -/

/-- Entries for properties match as patterns for the values of these properties do. -/
theorem attemptList_explicit {v : Value} (fps : List (String × Pattern)) {xs : List Value}
    (hlen : fps.length = xs.length)
    (hproperty : ∀ field x, (field, x) ∈ (fps.map (·.1)).zip xs → v.property? field = some x)
    (b : Bindings) :
    Entry.attemptList (fps.map fun f => .explicit f.1 f.2) v b =
      Pattern.attemptList (fps.map (·.2)) xs b := by
  induction fps generalizing xs b with
  | nil => rfl
  | cons f fps ih =>
    cases xs with
    | nil => exact absurd hlen (Nat.succ_ne_zero _)
    | cons x xs =>
      have hx : v.property? f.1 = some x := hproperty f.1 x List.mem_cons_self
      have hentry : (Entry.explicit f.1 f.2).attempt v b = f.2.attempt x b := by
        simp only [Entry.attempt, hx]
      rw [List.map_cons, List.map_cons, Entry.attemptList, Pattern.attemptList, hentry]
      congr 1
      funext b
      refine ih (Nat.succ.inj hlen) ?_ b
      intro field y hy
      exact hproperty field y (List.mem_cons_of_mem _ hy)

variable {identity : Identity} {arguments : List Value} {properties : List (String × Value)}
  {b : Bindings}

theorem attempt_positional_inst (cls : ClassName) (ps : List Pattern) :
    (Pattern.tagged cls.name (.positional ps)).attempt
        (.inst identity cls arguments properties) b =
      if ps.length = arguments.length then Pattern.attemptList ps arguments b
      else ⟨.mismatch (.wrongLength ps.length arguments.length), b⟩ := by
  simp only [Pattern.attempt, Arguments.attempt, Value.typeTag?, if_true]

theorem attempt_keyed_inst (cls : ClassName) (es : List Entry) :
    (Pattern.tagged cls.name (.keyed es)).attempt (.inst identity cls arguments properties) b =
      Entry.attemptList es (.inst identity cls arguments properties) b := by
  simp only [Pattern.attempt, Arguments.attempt, Value.typeTag?, Value.isKeyed, if_true]

/-- The attempts are the same, down to the test that fails. -/
theorem attempt_keyed_eq_positional {fps : List (String × Pattern)}
    (hnodup : (fps.map (·.1)).Nodup) (arguments : List Value) (s' : Supply) (b : Bindings) :
    (Pattern.tagged name (.keyed (fps.map fun f => .explicit f.1 f.2))).attempt
        ((withFields name (fps.map (·.1)) s₀).1.construct arguments s).1 b =
      (Pattern.tagged name (.positional (fps.map (·.2)))).attempt
        ((withFields name (fps.map (·.1)) s₀).1.construct
          (arguments.takeD fps.length .undefined) s').1 b := by
  have hlen : fps.length = (arguments.takeD fps.length .undefined).length :=
    (List.takeD_length _ _ _).symm
  have hproperty (field : String) (x : Value)
      (h : (field, x) ∈ (fps.map (·.1)).zip (arguments.takeD fps.length .undefined)) :
      ((withFields name (fps.map (·.1)) s₀).1.construct arguments s).1.property? field =
        some x := by
    refine property?_withFields hnodup ?_
    rwa [List.length_map]
  calc
    _ = Entry.attemptList (fps.map fun f => .explicit f.1 f.2)
          ((withFields name (fps.map (·.1)) s₀).1.construct arguments s).1 b :=
      attempt_keyed_inst ⟨⟨s₀.next⟩, name⟩ _
    _ = Pattern.attemptList (fps.map (·.2)) (arguments.takeD fps.length .undefined) b :=
      attemptList_explicit fps hlen hproperty b
    _ = _ :=
      ((attempt_positional_inst ⟨⟨s₀.next⟩, name⟩ _).trans
        (if_pos (by rwa [List.length_map]))).symm

/-- **Taking an instance apart by key and by position is the same**, with all bindings and with all
ways to fail, if by position it is made of as many arguments as it has fields. Made of any other
number of arguments, it does not match by position, whatever the patterns are. -/
theorem keyed_eq_positional (name : String) (fps : List (String × Pattern))
    (hnodup : (fps.map (·.1)).Nodup) (arguments : List Value) (s₀ s s' : Supply) :
    let c := (withFields name (fps.map (·.1)) s₀).1
    let keyed : Pattern := .tagged name (.keyed (fps.map fun f => .explicit f.1 f.2))
    let positional : Pattern := .tagged name (.positional (fps.map (·.2)))
    let fitted := arguments.takeD fps.length .undefined
    keyed.tryMatch (c.construct arguments s).1 = positional.tryMatch (c.construct fitted s').1 ∧
      (∀ b, keyed.matchInto (c.construct arguments s).1 b =
        positional.matchInto (c.construct fitted s').1 b) ∧
      (arguments.length ≠ fps.length →
        positional.tryMatch (c.construct arguments s).1 = .ok none) := by
  intro c keyed positional fitted
  have hattempt (b : Bindings) : keyed.attempt (c.construct arguments s).1 b =
      positional.attempt (c.construct fitted s').1 b :=
    attempt_keyed_eq_positional hnodup arguments s' b
  refine ⟨?_, ?_, ?_⟩
  · rw [Pattern.tryMatch, Pattern.tryMatch, hattempt]
  · intro b
    rw [Pattern.matchInto, Pattern.matchInto, hattempt]
  · intro hlen
    have hne : (fps.map (·.2)).length ≠ arguments.length := by
      rw [List.length_map]
      exact hlen.symm
    have hmiss : positional.attempt (c.construct arguments s).1 .empty = _ :=
      (attempt_positional_inst ⟨⟨s₀.next⟩, name⟩ _).trans (if_neg hne)
    rw [Pattern.tryMatch, hmiss]
    rfl

theorem keyed_eq_positional_of_missing_argument :
    let fps : List (String × Pattern) := [("second", .binder "x"), ("first", .constant .undefined)]
    let c := (withFields "Pair" ["second", "first"] ⟨0⟩).1
    (fps.map (·.1)).Nodup ∧
      (Pattern.tagged "Pair" (.keyed [.explicit "second" (.binder "x"),
          .explicit "first" (.constant .undefined)])).tryMatch (c.construct [.null] ⟨1⟩).1 =
        (Pattern.tagged "Pair" (.positional [.binder "x", .constant .undefined])).tryMatch
          (c.construct [.null, .undefined] ⟨2⟩).1 ∧
      (Pattern.tagged "Pair" (.positional [.binder "x", .constant .undefined])).tryMatch
        (c.construct [.null] ⟨1⟩).1 = .ok none := by
  intro fps c
  have hnodup : (fps.map (·.1)).Nodup := by decide
  obtain ⟨hmatch, -, hmiss⟩ := keyed_eq_positional "Pair" fps hnodup [.null] ⟨0⟩ ⟨1⟩ ⟨2⟩
  exact ⟨hnodup, hmatch, hmiss (by decide)⟩

end Destructure
