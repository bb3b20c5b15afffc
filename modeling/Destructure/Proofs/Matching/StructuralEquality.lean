import Destructure.Proofs.Matching.Binders
import Destructure.Value.CaseClass
import Mathlib.Data.List.Forall2

/-!
# Destructure.Proofs.Matching.StructuralEquality

A match cannot tell values of equal contents apart: `tryMatch_respects_sameAs`.

Design points:

* Instances are equal by class and arguments, and patterns also look at their properties. So this
  needs classes that compute equal properties from equal arguments (`CaseClass.Respects`), and
  instances that were made by constructing them (`Value.MadeBy`).
* A `ClassTable` says which class an identity is that of. That is all that has to be known of how
  classes came to be.
* Equality is not reflexive, since NaN is not, so `Value.Alike` is not a congruence that starts from
  equal values. It relates what two runs look at.

Proof shape: two runs of the same tests are compared. Components at the same path are alike
(`alike_component?`), a check that compares with a primitive value has the same answer on alike
values (`Check.holds_of_alike`), and no pattern compares with anything else (`isPrimitive_tests`).
-/

namespace Destructure

/-! ### Lists in step -/

section

variable {α : Type} {R : α → α → Prop}

theorem rel_getElem? {xs ys : List α} (h : List.Forall₂ R xs ys) (i : Nat) :
    Option.Rel R xs[i]? ys[i]? := by
  induction h generalizing i with
  | nil => exact .none
  | cons hxy _ ih =>
    cases i with
    | zero => exact .some hxy
    | succ i => exact ih i

theorem isSome_eq_of_rel {x? y? : Option α} (h : Option.Rel R x? y?) : x?.isSome = y?.isSome := by
  cases h <;> rfl

/-- The same keys in the same order, with related values. -/
def KeyedRel (R : α → α → Prop) : List (String × α) → List (String × α) → Prop :=
  List.Forall₂ fun p q => p.1 = q.1 ∧ R p.2 q.2

theorem KeyedRel.keys_eq {ps qs : List (String × α)} (h : KeyedRel R ps qs) :
    ps.map (·.1) = qs.map (·.1) := by
  induction h with
  | nil => rfl
  | cons hpq _ ih => rw [List.map_cons, List.map_cons, hpq.1, ih]

/-- A key leads to related values, or is missing in both lists. -/
theorem KeyedRel.lookup {ps qs : List (String × α)} (h : KeyedRel R ps qs) (key : String) :
    Option.Rel R (Properties.lookup key ps) (Properties.lookup key qs) := by
  induction h with
  | nil => exact .none
  | @cons p q ps qs hpq _ ih =>
    rw [Properties.lookup, Properties.lookup, ← hpq.1]
    by_cases hkey : key = p.1
    · rw [if_pos hkey, if_pos hkey]
      exact .some hpq.2
    · rw [if_neg hkey, if_neg hkey]
      exact ih

theorem KeyedRel.insert {ps qs : List (String × α)} (h : KeyedRel R ps qs) (key : String) {x y : α}
    (hxy : R x y) : KeyedRel R (Properties.insert key x ps) (Properties.insert key y qs) := by
  induction h with
  | nil => exact .cons ⟨rfl, hxy⟩ .nil
  | @cons p q ps qs hpq hrest ih =>
    obtain ⟨k, v⟩ := p
    obtain ⟨k', w⟩ := q
    obtain ⟨rfl, hvw⟩ : k = k' ∧ R v w := hpq
    rw [Properties.insert, Properties.insert]
    split
    · exact .cons ⟨rfl, hxy⟩ hrest
    split
    · exact .cons ⟨rfl, hxy⟩ (.cons ⟨rfl, hvw⟩ hrest)
    · exact .cons ⟨rfl, hvw⟩ ih

theorem KeyedRel.bindEntry {ps qs : List (String × Value)} {R : Value → Value → Prop}
    (h : KeyedRel R ps qs) (name : String) {x y : Value} (hxy : R x y) :
    KeyedRel R (bindEntry name x ps) (bindEntry name y qs) := by
  induction h with
  | nil => exact .cons ⟨rfl, hxy⟩ .nil
  | @cons p q ps qs hpq hrest ih =>
    obtain ⟨k, v⟩ := p
    obtain ⟨k', w⟩ := q
    obtain ⟨rfl, hvw⟩ : k = k' ∧ R v w := hpq
    rw [Destructure.bindEntry, Destructure.bindEntry]
    split
    · exact .cons ⟨rfl, hxy⟩ hrest
    · exact .cons ⟨rfl, hvw⟩ ih

theorem KeyedRel.ofList {ps qs : List (String × α)} (h : KeyedRel R ps qs) :
    KeyedRel R (Properties.ofList ps) (Properties.ofList qs) := by
  suffices ∀ as bs : List (String × α), KeyedRel R as bs →
      KeyedRel R (ps.foldl (fun ps p => Properties.insert p.1 p.2 ps) as)
        (qs.foldl (fun ps p => Properties.insert p.1 p.2 ps) bs) from this [] [] .nil
  induction h with
  | nil => exact fun _ _ h => h
  | @cons p q ps qs hpq _ ih =>
    intro as bs h
    rw [List.foldl_cons, List.foldl_cons, ← hpq.1]
    exact ih _ _ (h.insert p.1 hpq.2)

end

/-! ### Equal contents -/

namespace Value

/-- Equal contents, as a relation. -/
def Same (v w : Value) : Prop := v.sameAs w = true

theorem sameAsList_iff {xs ys : List Value} :
    sameAsList xs ys = true ↔ List.Forall₂ Same xs ys := by
  induction xs generalizing ys with
  | nil => cases ys <;> simp [sameAsList]
  | cons x xs ih => cases ys <;> simp [sameAsList, ih, Same]

theorem sameAsProperties_iff {ps qs : List (String × Value)} :
    sameAsProperties ps qs = true ↔ KeyedRel Same ps qs := by
  unfold KeyedRel
  induction ps generalizing qs with
  | nil => cases qs <;> simp [sameAsProperties]
  | cons p ps ih => cases qs <;> simp [sameAsProperties, ih, Same]

/-- Two primitive values with equal contents are one value, or they are numbers. -/
theorem eq_or_numbers_of_same {v w : Value} (hv : v.isKeyed = false) (h : v.Same w) :
    w = v ∨ ∃ d e, v = number d ∧ w = number e ∧ (d == e) = true := by
  unfold Same at h
  cases v with
  | array | object | inst => cases hv
  | number d =>
    cases w with
    | number e => exact .inr ⟨d, e, rfl, rfl, h⟩
    | _ => cases h
  | bool b =>
    cases w with
    | bool b' => exact .inl (congrArg bool (beq_iff_eq.1 h).symm)
    | _ => cases h
  | string s =>
    cases w with
    | string s' => exact .inl (congrArg string (beq_iff_eq.1 h).symm)
    | _ => cases h
  | undefined | null => cases w <;> first | exact .inl rfl | cases h

/-- Equal numbers are equal to the same values, although they may be two zeros. -/
theorem strictEq_numbers {d e : Double} (h : (d == e) = true) (literal : Value) :
    (number d).strictEq literal = (number e).strictEq literal := by
  cases literal with
  | number f =>
    have hiff : (d == f) = true ↔ (e == f) = true :=
      ⟨Double.beq_trans (Double.beq_comm d e ▸ h), Double.beq_trans h⟩
    exact Bool.eq_iff_iff.2 hiff
  | _ => rfl

end Value

/-! ### Values made by constructing -/

/-- Which class an identity is that of. -/
abbrev ClassTable := Identity → Option CaseClass

/-- The class is in the table, under its own identity. -/
def ClassTable.Has (table : ClassTable) (c : CaseClass) : Prop := table c.identity = some c

/-- Every instance inside the value was constructed by a class of the table. -/
inductive Value.MadeBy (table : ClassTable) : Value → Prop where
  | primitive {v : Value} : v.isKeyed = false → MadeBy table v
  | array {identity : Identity} {items : List Value} :
      (∀ x ∈ items, MadeBy table x) → MadeBy table (.array identity items)
  | object {identity : Identity} {tag : Option String} {properties : List (String × Value)} :
      (∀ p ∈ properties, MadeBy table p.2) → MadeBy table (.object identity tag properties)
  | inst {c : CaseClass} {arguments : List Value} {s : Supply} :
      table.Has c → (∀ x ∈ arguments, MadeBy table x) →
      (∀ p ∈ (c.propertiesOf arguments s).1, MadeBy table p.2) →
      MadeBy table (c.construct arguments s).1

/-- From arguments of equal contents the class computes properties of equal contents, whenever it
does so. `made` tells which arguments it gets. -/
def CaseClass.Respects (c : CaseClass) (made : Value → Prop) : Prop :=
  ∀ (xs ys : List Value) (s t : Supply), (∀ x ∈ xs, made x) → (∀ y ∈ ys, made y) →
    Value.sameAsList xs ys = true →
    Value.sameAsProperties (c.propertiesOf xs s).1 (c.propertiesOf ys t).1 = true

theorem keyedRel_fieldValues (fields : List String) {xs ys : List Value}
    (h : List.Forall₂ Value.Same xs ys) :
    KeyedRel Value.Same (CaseClass.fieldValues fields xs) (CaseClass.fieldValues fields ys) := by
  induction fields generalizing xs ys with
  | nil => exact .nil
  | cons field fields ih =>
    cases h with
    | nil => exact .cons ⟨rfl, rfl⟩ (ih .nil)
    | cons hxy hrest => exact .cons ⟨rfl, hxy⟩ (ih hrest)

/-- A class that only stores its arguments respects equality. -/
theorem respects_withFields (name : String) (fields : List String) (s : Supply)
    (made : Value → Prop) : (CaseClass.withFields name fields s).1.Respects made := by
  intro xs ys _ _ _ _ h
  exact Value.sameAsProperties_iff.2
    (keyedRel_fieldValues fields (Value.sameAsList_iff.1 h)).ofList

/-! ### Alike values -/

variable {table : ClassTable}

/-- Two values of equal contents, with instances that were constructed. -/
structure Value.Alike (table : ClassTable) (v w : Value) : Prop where
  left : v.MadeBy table
  right : w.MadeBy table
  same : v.Same w

namespace Value

theorem forall₂_alike {xs ys : List Value} (hxs : ∀ x ∈ xs, x.MadeBy table)
    (hys : ∀ y ∈ ys, y.MadeBy table) (h : List.Forall₂ Same xs ys) :
    List.Forall₂ (Alike table) xs ys := by
  induction h with
  | nil => exact .nil
  | cons hxy _ ih =>
    obtain ⟨hx, hxs⟩ := List.forall_mem_cons.1 hxs
    obtain ⟨hy, hys⟩ := List.forall_mem_cons.1 hys
    exact .cons ⟨hx, hy, hxy⟩ (ih hxs hys)

theorem keyedRel_alike {ps qs : List (String × Value)} (hps : ∀ p ∈ ps, p.2.MadeBy table)
    (hqs : ∀ q ∈ qs, q.2.MadeBy table) (h : KeyedRel Same ps qs) :
    KeyedRel (Alike table) ps qs := by
  induction h with
  | nil => exact .nil
  | cons hpq _ ih =>
    obtain ⟨hp, hps⟩ := List.forall_mem_cons.1 hps
    obtain ⟨hq, hqs⟩ := List.forall_mem_cons.1 hqs
    exact .cons ⟨hpq.1, hp, hq, hpq.2⟩ (ih hps hqs)

/-- What two alike values look like from the outside, with parts that are alike again. -/
inductive AlikeParts (table : ClassTable) : Value → Value → Prop where
  | refl {v : Value} : v.isKeyed = false → AlikeParts table v v
  | numbers {d e : Double} : (d == e) = true → AlikeParts table (number d) (number e)
  | arrays {i j : Identity} {xs ys : List Value} : List.Forall₂ (Alike table) xs ys →
      AlikeParts table (array i xs) (array j ys)
  | objects {i j : Identity} {tag : Option String} {ps qs : List (String × Value)} :
      KeyedRel (Alike table) ps qs → AlikeParts table (object i tag ps) (object j tag qs)
  | instances {i j : Identity} {cls : ClassName} {xs ys : List Value}
      {ps qs : List (String × Value)} : List.Forall₂ (Alike table) xs ys →
      KeyedRel (Alike table) ps qs → AlikeParts table (inst i cls xs ps) (inst j cls ys qs)

theorem MadeBy.of_array {i : Identity} {xs : List Value} (h : (Value.array i xs).MadeBy table) :
    ∀ x ∈ xs, x.MadeBy table := by
  generalize hv : Value.array i xs = v at h
  cases h with
  | primitive hprimitive => subst hv; cases hprimitive
  | array hxs => cases hv; exact hxs
  | object => cases hv
  | inst => cases hv

theorem MadeBy.of_object {i : Identity} {tag : Option String} {ps : List (String × Value)}
    (h : (Value.object i tag ps).MadeBy table) : ∀ p ∈ ps, p.2.MadeBy table := by
  generalize hv : Value.object i tag ps = v at h
  cases h with
  | primitive hprimitive => subst hv; cases hprimitive
  | array => cases hv
  | object hps => cases hv; exact hps
  | inst => cases hv

/-- An instance has the name of its class, and the properties that the class has computed. -/
theorem MadeBy.of_inst {i : Identity} {cls : ClassName} {xs : List Value}
    {ps : List (String × Value)} (h : (Value.inst i cls xs ps).MadeBy table) :
    ∃ c s, table.Has c ∧ cls = c.className ∧ ps = (c.propertiesOf xs s).1 ∧
      (∀ x ∈ xs, x.MadeBy table) ∧ ∀ p ∈ ps, p.2.MadeBy table := by
  generalize hv : Value.inst i cls xs ps = v at h
  cases h with
  | primitive hprimitive => subst hv; cases hprimitive
  | array => cases hv
  | object => cases hv
  | @inst c arguments s hc hxs hps =>
    cases hv
    exact ⟨c, s, hc, rfl, rfl, hxs, hps⟩

/-- Instances with classes of one identity have one class, so their properties are alike too. -/
theorem Alike.parts (hrespects : ∀ c, table.Has c → c.Respects (MadeBy table)) {v w : Value}
    (h : Alike table v w) : AlikeParts table v w := by
  obtain ⟨hv, hw, hsame⟩ := h
  by_cases hprimitive : v.isKeyed = false
  · rcases eq_or_numbers_of_same hprimitive hsame with rfl | ⟨d, e, rfl, rfl, hde⟩
    · exact .refl hprimitive
    · exact .numbers hde
  cases v with
  | array i xs =>
    cases w with
    | array j ys =>
      exact .arrays (forall₂_alike hv.of_array hw.of_array (sameAsList_iff.1 hsame))
    | _ => cases hsame
  | object i tag ps =>
    cases w with
    | object j tag' qs =>
      obtain ⟨htag, hps⟩ := (Bool.and_eq_true _ _).mp hsame
      obtain rfl := beq_iff_eq.1 htag
      exact .objects (keyedRel_alike hv.of_object hw.of_object (sameAsProperties_iff.1 hps))
    | _ => cases hsame
  | inst i cls xs ps =>
    cases w with
    | inst j cls' ys qs =>
      obtain ⟨hcls, hxys⟩ := (Bool.and_eq_true _ _).mp hsame
      obtain ⟨c, s, hc, rfl, rfl, hxs, hps⟩ := hv.of_inst
      obtain ⟨d, t, hd, rfl, rfl, hys, hqs⟩ := hw.of_inst
      obtain rfl : c = d := by
        have hidentity : c.identity = d.identity := beq_iff_eq.1 hcls
        exact Option.some.inj (hc.symm.trans ((congrArg table hidentity).trans hd))
      exact .instances (forall₂_alike hxs hys (sameAsList_iff.1 hxys))
        (keyedRel_alike hps hqs (sameAsProperties_iff.1 (hrespects c hc xs ys s t hxs hys hxys)))
    | _ => cases hsame
  | _ => exact absurd rfl hprimitive

end Value

/-! ### Components and checks -/

theorem part?_of_primitive {v : Value} (h : v.isKeyed = false) (s : Selector) :
    v.part? s = none := by
  cases v with
  | array | object | inst => cases h
  | _ => cases s <;> rfl

theorem strictEq_of_keyed {v literal : Value} (hv : v.isKeyed = true)
    (hliteral : literal.isKeyed = false) : v.strictEq literal = false := by
  cases v with
  | array | object | inst =>
    cases literal with
    | array | object | inst => cases hliteral
    | _ => rfl
  | _ => cases hv

/-- A check that compares with a primitive value, if it compares. -/
def Check.IsPrimitive : Check → Prop
  | .equals literal => literal.isKeyed = false
  | _ => True

section

variable (hrespects : ∀ c, table.Has c → c.Respects (Value.MadeBy table))

include hrespects

/-- One step into values that are alike leads to values that are alike. -/
theorem alike_part? {v w : Value} (h : v.Alike table w) (s : Selector) :
    Option.Rel (Value.Alike table) (v.part? s) (w.part? s) := by
  cases h.parts hrespects with
  | refl hprimitive =>
    rw [part?_of_primitive hprimitive]
    exact .none
  | numbers => cases s <;> exact .none
  | @arrays i j xs ys hxys =>
    cases s with
    | item index => exact rel_getElem? hxys index
    | argument index => exact .none
    | property key =>
      have hlength :
          Value.Alike table (.number (.ofNat xs.length)) (.number (.ofNat xs.length)) := by
        refine ⟨.primitive rfl, .primitive rfl, ?_⟩
        have hself : (Double.ofNat xs.length == Double.ofNat xs.length) = true := by
          rw [Double.beq_self, Double.isNaN_ofNat, Bool.not_false]
        exact hself
      rw [Value.part?, Value.part?, Value.property?, Value.property?, ← hxys.length_eq]
      split
      · exact .some hlength
      · exact .none
  | objects hps =>
    cases s with
    | property key => exact hps.lookup key
    | _ => exact .none
  | instances hxys hps =>
    cases s with
    | item index => exact .none
    | property key => exact hps.lookup key
    | argument index => exact rel_getElem? hxys index

/-- A path into values that are alike leads to values that are alike. -/
theorem alike_component? {v w : Value} (h : v.Alike table w) (path : List Selector) :
    Option.Rel (Value.Alike table) (v.component? path) (w.component? path) := by
  induction path generalizing v w with
  | nil => exact .some h
  | cons s path ih =>
    rw [Value.component?, Value.component?]
    have hpart := alike_part? hrespects h s
    generalize v.part? s = x?, w.part? s = y? at hpart ⊢
    cases hpart with
    | none => exact .none
    | some hxy => exact ih hxy

/-- A check that looks for one component has the same answer, since components are alike, and one
that looks at the value itself, since the shapes are the same. -/
theorem Check.holds_of_alike {check : Check} (hcheck : check.IsPrimitive) {v w : Value}
    (h : v.Alike table w) : check.holds v = check.holds w := by
  cases check with
  | hasProperty key =>
    have hpart : Option.Rel (Value.Alike table) (v.property? key) (w.property? key) :=
      alike_part? hrespects h (.property key)
    exact isSome_eq_of_rel hpart
  | equals literal =>
    rw [Check.holds, Check.holds]
    cases h.parts hrespects with
    | refl => rfl
    | numbers hde => exact Value.strictEq_numbers hde literal
    | arrays | objects | instances =>
      rw [strictEq_of_keyed rfl hcheck, strictEq_of_keyed rfl hcheck]
  | hasItems n =>
    cases h.parts hrespects with
    | arrays hxys => rw [Check.holds, Check.holds, hxys.length_eq]
    | _ => rfl
  | hasArguments n =>
    cases h.parts hrespects with
    | instances hxys _ => rw [Check.holds, Check.holds, hxys.length_eq]
    | _ => rfl
  | isArray | isKeyed | hasTag | isInstance | capture =>
    cases h.parts hrespects <;> rfl

theorem Test.holds_of_alike {t : Test} (ht : t.check.IsPrimitive) {v w : Value}
    (h : v.Alike table w) : t.holds v = t.holds w := by
  rw [Test.holds, Test.holds]
  have hcomponent := alike_component? hrespects h t.path
  generalize v.component? t.path = x?, w.component? t.path = y? at hcomponent ⊢
  cases hcomponent with
  | none => rfl
  | some hxy => exact Check.holds_of_alike hrespects ht hxy

end

/-! ### Tests of patterns -/

theorem isPrimitive_under {ts : List Test} (h : ∀ t ∈ ts, t.check.IsPrimitive) (s : Selector) :
    ∀ t ∈ ts.map (Test.under s), t.check.IsPrimitive := by
  intro t ht
  obtain ⟨u, hu, rfl⟩ := List.mem_map.1 ht
  exact h u hu

mutual

/-- The literals of a pattern are constants, numbers and strings. -/
theorem Pattern.isPrimitive_tests (p : Pattern) : ∀ t ∈ p.tests, t.check.IsPrimitive := by
  cases p with
  | array elements =>
    have hrest := Pattern.isPrimitive_testsList .item 0 elements
    exact List.forall_mem_cons.2 ⟨trivial, List.forall_mem_cons.2 ⟨trivial, hrest⟩⟩
  | object entries => exact List.forall_mem_cons.2 ⟨trivial, Entry.isPrimitive_testsList entries⟩
  | tagged name arguments =>
    exact List.forall_mem_cons.2 ⟨trivial, arguments.isPrimitive_tests name⟩
  | binder name => exact List.forall_mem_singleton.2 trivial
  | constant c => exact List.forall_mem_singleton.2 (by cases c <;> rfl)
  | number d => exact List.forall_mem_singleton.2 rfl
  | string s => exact List.forall_mem_singleton.2 rfl
  | wildcard => exact List.forall_mem_nil _
  | blank => exact List.forall_mem_nil _

theorem Pattern.isPrimitive_testsList (select : Nat → Selector) (i : Nat) (ps : List Pattern) :
    ∀ t ∈ Pattern.testsList select i ps, t.check.IsPrimitive := by
  cases ps with
  | nil => exact List.forall_mem_nil _
  | cons p ps =>
    rw [Pattern.testsList]
    exact List.forall_mem_append.2 ⟨isPrimitive_under p.isPrimitive_tests (select i),
      Pattern.isPrimitive_testsList select (i + 1) ps⟩

theorem Entry.isPrimitive_tests (e : Entry) : ∀ t ∈ e.tests, t.check.IsPrimitive := by
  cases e with
  | shorthand key =>
    exact List.forall_mem_cons.2 ⟨trivial, List.forall_mem_singleton.2 trivial⟩
  | explicit key p =>
    exact List.forall_mem_cons.2 ⟨trivial, isPrimitive_under p.isPrimitive_tests (.property key)⟩

theorem Entry.isPrimitive_testsList (es : List Entry) :
    ∀ t ∈ Entry.testsList es, t.check.IsPrimitive := by
  cases es with
  | nil => exact List.forall_mem_nil _
  | cons e es =>
    rw [Entry.testsList]
    exact List.forall_mem_append.2 ⟨e.isPrimitive_tests, Entry.isPrimitive_testsList es⟩

theorem Arguments.isPrimitive_tests (as : Arguments) (name : String) :
    ∀ t ∈ as.tests name, t.check.IsPrimitive := by
  cases as with
  | unspecified => exact List.forall_mem_nil _
  | positional elements =>
    have hrest := Pattern.isPrimitive_testsList .argument 0 elements
    exact List.forall_mem_cons.2 ⟨trivial, List.forall_mem_cons.2 ⟨trivial, hrest⟩⟩
  | keyed entries => exact List.forall_mem_cons.2 ⟨trivial, Entry.isPrimitive_testsList entries⟩

end

/-! ### Runs on alike values -/

section

variable (hrespects : ∀ c, table.Has c → c.Respects (Value.MadeBy table))

include hrespects

theorem keyedRel_bind {v w : Value} (h : v.Alike table w) (t : Test) {b c : Bindings}
    (hbc : KeyedRel Value.Same b.entries c.entries) :
    KeyedRel Value.Same (t.bind v b).entries (t.bind w c).entries := by
  obtain ⟨path, check⟩ := t
  cases check with
  | capture name =>
    rw [Test.bind, Test.bind]
    have hcomponent := alike_component? hrespects h path
    generalize v.component? path = x?, w.component? path = y? at hcomponent ⊢
    cases hcomponent with
    | none => exact hbc
    | some hxy => exact hbc.bindEntry name hxy.same
  | _ => exact hbc

/-- Two runs stay in step: they fail at the same test or not at all, and what they have bound has
equal contents throughout. -/
theorem runTests_of_alike {v w : Value} (h : v.Alike table w) {ts : List Test}
    (hts : ∀ t ∈ ts, t.check.IsPrimitive) {b c : Bindings}
    (hbc : KeyedRel Value.Same b.entries c.entries) :
    (runTests v ts b).1 = (runTests w ts c).1 ∧
      KeyedRel Value.Same (runTests v ts b).2.entries (runTests w ts c).2.entries := by
  induction ts generalizing b c with
  | nil => exact ⟨rfl, hbc⟩
  | cons t ts ih =>
    obtain ⟨ht, hts⟩ := List.forall_mem_cons.1 hts
    rw [runTests, runTests, ← Test.holds_of_alike hrespects ht h]
    split
    · exact ih hts (keyedRel_bind hrespects h t hbc)
    · exact ⟨rfl, hbc⟩

end

/-- Two attempts have ended alike: in the same error, both without a match, or both with bindings of
the same names in the same order to values of equal contents. -/
inductive SameOutcome :
    Except MatchError (Option Bindings) → Except MatchError (Option Bindings) → Prop where
  | failed (e : MatchError) : SameOutcome (.error e) (.error e)
  | mismatched : SameOutcome (.ok none) (.ok none)
  | matched {b c : Bindings} : b.names = c.names → (b == c) = true →
      SameOutcome (.ok (some b)) (.ok (some c))

/-- **Matching respects structural equality.** Let every instance have been made by a class that
computes equal properties from equal arguments, as every class does that only stores its arguments.
Then a pattern has the same outcome on values of equal contents. -/
theorem tryMatch_respects_sameAs :
    (∀ name fields s made, (CaseClass.withFields name fields s).1.Respects made) ∧
      ∀ table : ClassTable, (∀ c, table.Has c → c.Respects (Value.MadeBy table)) →
        ∀ (p : Pattern) (v w : Value), v.MadeBy table → w.MadeBy table → (v == w) = true →
          SameOutcome (p.tryMatch v) (p.tryMatch w) := by
  refine ⟨respects_withFields, ?_⟩
  intro table hrespects p v w hv hw hsame
  have hempty : KeyedRel Value.Same Bindings.empty.entries Bindings.empty.entries := .nil
  obtain ⟨hresult, hbindings⟩ :=
    runTests_of_alike hrespects ⟨hv, hw, hsame⟩ p.isPrimitive_tests hempty
  rw [tryMatch_eq_runTests, tryMatch_eq_runTests, ← hresult]
  cases (runTests v p.tests .empty).1 with
  | error e => exact .failed e
  | ok matched =>
    cases matched with
    | false => exact .mismatched
    | true => exact .matched hbindings.keys_eq (Value.sameAsProperties_iff.2 hbindings)

theorem tryMatch_respects_sameAs_of_zeros :
    let point := (CaseClass.withFields "Point" ["x"] ⟨0⟩).1
    let table : ClassTable := fun i => if i = point.identity then some point else none
    let plus := (point.construct [.number ⟨0⟩] ⟨1⟩).1
    let minus := (point.construct [.number ⟨0x8000000000000000⟩] ⟨2⟩).1
    let p := Pattern.tagged "Point" (.keyed [.explicit "x" (.number ⟨0⟩), .shorthand "x"])
    (∀ c, table.Has c → c.Respects (Value.MadeBy table)) ∧ plus.MadeBy table ∧
      minus.MadeBy table ∧ (plus == minus) = true ∧
      SameOutcome (p.tryMatch plus) (p.tryMatch minus) := by
  intro point table plus minus p
  have hrespects : ∀ c, table.Has c → c.Respects (Value.MadeBy table) := by
    intro c hc
    obtain ⟨-, rfl⟩ : c.identity = point.identity ∧ point = c := by
      simpa [table, ClassTable.Has] using hc
    exact tryMatch_respects_sameAs.1 _ _ _ _
  have hmade (d : Double) (s : Supply) : (point.construct [.number d] s).1.MadeBy table := by
    have hnumber : (Value.number d).MadeBy table := .primitive rfl
    exact .inst (if_pos rfl) (List.forall_mem_singleton.2 hnumber)
      (List.forall_mem_singleton.2 hnumber)
  have hsame : (plus == minus) = true := by decide
  exact ⟨hrespects, hmade _ _, hmade _ _, hsame,
    tryMatch_respects_sameAs.2 table hrespects p plus minus (hmade _ _) (hmade _ _) hsame⟩

end Destructure
