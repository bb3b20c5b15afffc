import Destructure.Proofs.Matching.StructuralEquality
import Destructure.Proofs.Value.Identities

/-!
# Destructure.Proofs.Value.Equalities

How the two equalities of values belong together: `equalities_coherent`.

Design points:

* Neither equality is reflexive, since NaN is not equal to itself. What keeps a value from being
  equal to itself is said without comparing anything (`Value.Reaches`).
* Strict equality looks at identities and the other one at contents. Only for values that were made
  does the first imply the second, so there the statement asks for a heap that has both. Whatever
  constructors make has one (`exists_heap_of_produced`).

Proof shape: equal contents are equal parts (`Value.SameParts`). Whatever holds of a value because
it holds of the parts that are compared holds of all values (`Value.inductionOn`). So it is with
symmetry and transitivity. Strict equality is `==` on primitive values and equality of identities on
containers, so it has little to be proved.
-/

namespace Destructure

/-! ### Lists in step -/

section

variable {α : Type} {R : α → α → Prop} {xs ys zs : List α}

theorem forall₂_symm_of_mem (hsymm : ∀ x ∈ xs, ∀ y, R x y → R y x) (h : List.Forall₂ R xs ys) :
    List.Forall₂ R ys xs := by
  induction h with
  | nil => exact .nil
  | cons hxy _ ih =>
    obtain ⟨hx, hxs⟩ := List.forall_mem_cons.1 hsymm
    exact .cons (hx _ hxy) (ih hxs)

theorem forall₂_trans_of_mem (htrans : ∀ x ∈ xs, ∀ y z, R x y → R y z → R x z)
    (h : List.Forall₂ R xs ys) (h' : List.Forall₂ R ys zs) : List.Forall₂ R xs zs := by
  induction h generalizing zs with
  | nil => exact h'
  | cons hxy _ ih =>
    obtain ⟨hx, hxs⟩ := List.forall_mem_cons.1 htrans
    cases h' with
    | cons hyz hrest => exact .cons (hx _ _ hxy hyz) (ih hxs hrest)

end

namespace Value

/-! ### What equality looks at -/

/-- The parts of a container that are compared: items, properties of objects, arguments of
instances. -/
def compared : Value → List Value
  | array _ items => items
  | object _ _ properties => properties.map (·.2)
  | inst _ _ arguments _ => arguments
  | _ => []

/-- What holds of a value as soon as it holds of all its parts that are compared holds of all
values. -/
@[elab_as_elim]
theorem inductionOn {motive : Value → Prop} (v : Value)
    (step : ∀ v, (∀ x ∈ v.compared, motive x) → motive v) : motive v := by
  have primitive (v : Value) (h : v.compared = []) : motive v :=
    step v (h ▸ List.forall_mem_nil _)
  exact @Value.rec motive (fun xs => ∀ x ∈ xs, motive x)
    (fun ps => ∀ p ∈ ps, motive p.2) (fun p => motive p.2) (primitive _ rfl) (primitive _ rfl)
    (fun _ => primitive _ rfl) (fun _ => primitive _ rfl) (fun _ => primitive _ rfl)
    (fun _ _ ih => step _ ih) (fun _ _ _ ih => step _ (List.forall_mem_map.2 ih))
    (fun _ _ _ _ ih _ => step _ ih)
    (List.forall_mem_nil _) (fun _ _ hx hxs => List.forall_mem_cons.2 ⟨hx, hxs⟩)
    (List.forall_mem_nil _) (fun _ _ hp hps => List.forall_mem_cons.2 ⟨hp, hps⟩)
    (fun _ _ h => h) v

/-! ### Equal contents -/

/-- What two values of equal contents look like from the outside, with parts of equal contents. -/
inductive SameParts : Value → Value → Prop
  | primitive {v : Value} : v.isKeyed = false → v.Same v → SameParts v v
  | numbers {d e : Double} : (d == e) = true → SameParts (number d) (number e)
  | arrays {i j : Identity} {xs ys : List Value} : List.Forall₂ Same xs ys →
      SameParts (array i xs) (array j ys)
  | objects {i j : Identity} {tag : Option String} {ps qs : List (String × Value)} :
      KeyedRel Same ps qs → SameParts (object i tag ps) (object j tag qs)
  | instances {i j : Identity} {c d : ClassName} {xs ys : List Value}
      {ps qs : List (String × Value)} : c.identity = d.identity → List.Forall₂ Same xs ys →
      SameParts (inst i c xs ps) (inst j d ys qs)

/-- Values of equal contents look alike from the outside, down to their parts. -/
theorem Same.parts {v w : Value} (h : v.Same w) : SameParts v w := by
  by_cases hprimitive : v.isKeyed = false
  · rcases eq_or_numbers_of_same hprimitive h with rfl | ⟨d, e, rfl, rfl, hde⟩
    · exact .primitive hprimitive h
    · exact .numbers hde
  cases v with
  | array i xs =>
    cases w with
    | array j ys => exact .arrays (sameAsList_iff.1 h)
    | _ => cases h
  | object i tag ps =>
    cases w with
    | object j tag' qs =>
      obtain ⟨htag, hps⟩ := (Bool.and_eq_true _ _).mp h
      obtain rfl := beq_iff_eq.1 htag
      exact .objects (sameAsProperties_iff.1 hps)
    | _ => cases h
  | inst i c xs ps =>
    cases w with
    | inst j d ys qs =>
      obtain ⟨hcls, hxys⟩ := (Bool.and_eq_true _ _).mp h
      exact .instances (beq_iff_eq.1 hcls) (sameAsList_iff.1 hxys)
    | _ => cases h
  | _ => exact absurd rfl hprimitive

theorem SameParts.same {v w : Value} (h : SameParts v w) : v.Same w := by
  cases h with
  | primitive _ hself => exact hself
  | numbers hde => exact hde
  | arrays hxys => exact sameAsList_iff.2 hxys
  | objects hps =>
    exact (Bool.and_eq_true _ _).mpr ⟨beq_self_eq_true _, sameAsProperties_iff.2 hps⟩
  | instances hcls hxys =>
    exact (Bool.and_eq_true _ _).mpr ⟨beq_iff_eq.2 hcls, sameAsList_iff.2 hxys⟩

/-- Parts that can be turned round make a whole that can be. -/
theorem SameParts.symm {v w : Value} (h : SameParts v w)
    (hparts : ∀ x ∈ v.compared, ∀ y, x.Same y → y.Same x) : SameParts w v := by
  cases h with
  | primitive hv hself => exact .primitive hv hself
  | @numbers d e hde => exact .numbers ((Double.beq_comm e d).trans hde)
  | arrays hxys => exact .arrays (forall₂_symm_of_mem hparts hxys)
  | @objects i j tag ps qs hpqs =>
    have hstep : ∀ p ∈ ps, ∀ q : String × Value, p.1 = q.1 ∧ p.2.Same q.2 →
        q.1 = p.1 ∧ q.2.Same p.2 :=
      fun p hp q hpq => ⟨hpq.1.symm, hparts _ (List.mem_map_of_mem hp) _ hpq.2⟩
    exact .objects (forall₂_symm_of_mem hstep hpqs)
  | instances hcls hxys => exact .instances hcls.symm (forall₂_symm_of_mem hparts hxys)

theorem Same.symm {v w : Value} (h : v.Same w) : w.Same v := by
  induction v using inductionOn generalizing w with
  | step v ih => exact (h.parts.symm fun x hx _ => ih x hx).same

/-- The first of three values in a row decides what the others look like. -/
theorem SameParts.trans {u v w : Value} (huv : SameParts u v) (hvw : SameParts v w)
    (hparts : ∀ x ∈ u.compared, ∀ y z, x.Same y → y.Same z → x.Same z) : SameParts u w := by
  cases huv with
  | primitive => exact hvw
  | numbers hde =>
    cases hvw with
    | primitive => exact .numbers hde
    | numbers hef => exact .numbers (Double.beq_trans hde hef)
  | arrays hxys =>
    cases hvw with
    | primitive hv => cases hv
    | arrays hyzs => exact .arrays (forall₂_trans_of_mem hparts hxys hyzs)
  | @objects i j tag ps qs hpqs =>
    cases hvw with
    | primitive hv => cases hv
    | objects hqrs =>
      have hstep : ∀ p ∈ ps, ∀ q r : String × Value, p.1 = q.1 ∧ p.2.Same q.2 →
          q.1 = r.1 ∧ q.2.Same r.2 → p.1 = r.1 ∧ p.2.Same r.2 :=
        fun p hp q r hpq hqr =>
          ⟨hpq.1.trans hqr.1, hparts _ (List.mem_map_of_mem hp) _ _ hpq.2 hqr.2⟩
      exact .objects (forall₂_trans_of_mem hstep hpqs hqrs)
  | instances hcls hxys =>
    cases hvw with
    | primitive hv => cases hv
    | instances hcls' hyzs =>
      exact .instances (hcls.trans hcls') (forall₂_trans_of_mem hparts hxys hyzs)

theorem Same.trans {u v w : Value} (huv : u.Same v) (hvw : v.Same w) : u.Same w := by
  induction u using inductionOn generalizing v w with
  | step u ih => exact (huv.parts.trans hvw.parts fun x hx _ _ => ih x hx).same

/-! ### Values that hold NaN -/

/-- The second value is found in the first by going into arrays, objects and constructor arguments,
any number of times. -/
inductive Reaches : Value → Value → Prop
  | refl (v : Value) : Reaches v v
  | step {v x w : Value} : x ∈ v.compared → Reaches x w → Reaches v w

/-- NaN is found nowhere in the value. -/
def IsFreeOfNaN (v : Value) : Prop := ∀ d, v.Reaches (number d) → d.isNaN = false

theorem isFreeOfNaN_iff_of_primitive {v : Value} (hv : v.isKeyed = false) :
    v.IsFreeOfNaN ↔ ∀ d, v = number d → d.isNaN = false := by
  have hcompared : v.compared = [] := by
    cases v with
    | array | object | inst => cases hv
    | _ => rfl
  constructor
  · rintro h d rfl
    exact h d (.refl _)
  · intro h d hd
    cases hd with
    | refl => exact h d rfl
    | step hx _ => exact absurd (hcompared ▸ hx) List.not_mem_nil

theorem isFreeOfNaN_iff_of_keyed {v : Value} (hv : v.isKeyed = true) :
    v.IsFreeOfNaN ↔ ∀ x ∈ v.compared, x.IsFreeOfNaN := by
  constructor
  · intro h x hx d hd
    exact h d (.step hx hd)
  · intro h d hd
    cases hd with
    | refl => cases hv
    | step hx hd => exact h _ hx d hd

theorem same_self_iff_of_primitive {v : Value} (hv : v.isKeyed = false) :
    v.Same v ↔ ∀ d, v = number d → d.isNaN = false := by
  unfold Same
  cases v with
  | array | object | inst => cases hv
  | number d => simp [sameAs, Double.beq_self]
  | _ => simp [sameAs]

theorem same_self_iff_of_keyed {v : Value} (hv : v.isKeyed = true) :
    v.Same v ↔ ∀ x ∈ v.compared, x.Same x := by
  cases v with
  | array i xs => exact sameAsList_iff.trans List.forall₂_same
  | object i tag ps =>
    -- Keys are compared too, but each is equal to itself.
    have hps : sameAsProperties ps ps = true ↔ ∀ p ∈ ps, p.1 = p.1 ∧ p.2.Same p.2 :=
      sameAsProperties_iff.trans List.forall₂_same
    rw [compared, List.forall_mem_map, Same, sameAs, beq_self_eq_true, Bool.true_and, hps]
    simp only [true_and]
  | inst i cls xs ps =>
    have hxs : sameAsList xs xs = true ↔ ∀ x ∈ xs, x.Same x :=
      sameAsList_iff.trans List.forall₂_same
    simpa [Same, sameAs, compared] using hxs
  | _ => cases hv

/-- A value is equal to itself unless NaN is found in it. -/
theorem same_self_iff {v : Value} : v.Same v ↔ v.IsFreeOfNaN := by
  induction v using inductionOn with
  | step v ih =>
    cases hv : v.isKeyed with
    | false => rw [same_self_iff_of_primitive hv, isFreeOfNaN_iff_of_primitive hv]
    | true =>
      rw [same_self_iff_of_keyed hv, isFreeOfNaN_iff_of_keyed hv]
      exact forall₂_congr ih

/-! ### Strict equality -/

theorem isKeyed_eq_isSome_identity? (v : Value) : v.isKeyed = v.identity?.isSome := by
  cases v <;> rfl

theorem isKeyed_eq_of_strictEq {v w : Value} (h : v.strictEq w = true) :
    v.isKeyed = w.isKeyed := by
  cases v <;> cases w <;> first | rfl | cases h

theorem strictEq_of_primitive {v : Value} (hv : v.isKeyed = false) (w : Value) :
    v.strictEq w = v.sameAs w := by
  cases v with
  | array | object | inst => cases hv
  | _ => cases w <;> rfl

/-- Containers are strictly equal if they have one identity. Identities are given to containers of
all kinds, so that they are of one kind has to be said. -/
theorem strictEq_iff_of_keyed {v : Value} (hv : v.isKeyed = true) {w : Value} :
    v.strictEq w = true ↔ v.identity? = w.identity? ∧ v.typeName = w.typeName := by
  cases v with
  | array | object | inst => cases w <;> simp [strictEq, identity?, typeName]
  | _ => cases hv

theorem strictEq_symm {v w : Value} (h : v.strictEq w = true) : w.strictEq v = true := by
  have hkeyed := isKeyed_eq_of_strictEq h
  cases hv : v.isKeyed with
  | false =>
    rw [strictEq_of_primitive hv] at h
    rw [strictEq_of_primitive (hkeyed.symm.trans hv)]
    exact Same.symm h
  | true =>
    obtain ⟨hid, htype⟩ := (strictEq_iff_of_keyed hv).1 h
    exact (strictEq_iff_of_keyed (hkeyed.symm.trans hv)).2 ⟨hid.symm, htype.symm⟩

theorem strictEq_trans {u v w : Value} (huv : u.strictEq v = true) (hvw : v.strictEq w = true) :
    u.strictEq w = true := by
  have hkeyed := isKeyed_eq_of_strictEq huv
  cases hu : u.isKeyed with
  | false =>
    rw [strictEq_of_primitive hu] at huv ⊢
    rw [strictEq_of_primitive (hkeyed.symm.trans hu)] at hvw
    exact Same.trans huv hvw
  | true =>
    obtain ⟨hid, htype⟩ := (strictEq_iff_of_keyed hu).1 huv
    obtain ⟨hid', htype'⟩ := (strictEq_iff_of_keyed (hkeyed.symm.trans hu)).1 hvw
    exact (strictEq_iff_of_keyed hu).2 ⟨hid.trans hid', htype.trans htype'⟩

/-- NaN alone is not equal to itself. -/
theorem strictEq_self_iff {v : Value} :
    v.strictEq v = true ↔ ∀ d, v = number d → d.isNaN = false := by
  cases hv : v.isKeyed with
  | false =>
    rw [strictEq_of_primitive hv]
    exact same_self_iff_of_primitive hv
  | true =>
    refine iff_of_true ((strictEq_iff_of_keyed hv).2 ⟨rfl, rfl⟩) ?_
    rintro d rfl
    cases hv

/-- Strictly equal containers are one, so their contents are equal if they are to themselves. -/
theorem same_of_strictEq {heap : Heap} {v w : Value} (hv : v.StoredIn heap) (hw : w.StoredIn heap)
    (h : v.strictEq w = true) (hself : v.Same v) : v.Same w := by
  cases hkeyed : v.isKeyed with
  | false => exact (strictEq_of_primitive hkeyed w).symm.trans h
  | true =>
    obtain ⟨hid, -⟩ := (strictEq_iff_of_keyed hkeyed).1 h
    obtain ⟨i, hi⟩ : ∃ i, v.identity? = some i :=
      Option.isSome_iff_exists.1 ((isKeyed_eq_isSome_identity? v).symm.trans hkeyed)
    obtain rfl : v = w :=
      Option.some.inj ((hv.heap_eq hi).symm.trans (hw.heap_eq (hid.symm.trans hi)))
    exact hself

end Value

/-- **The two equalities are coherent.** Both are symmetric and transitive. A value has contents
equal to its own unless NaN can be found in it, and it is strictly equal to itself unless it is NaN.
Where values come from constructors, and so have one heap, strictly equal values also have equal
contents, as soon as the first is equal to itself. -/
theorem equalities_coherent :
    (∀ v w : Value, (v == w) = (w == v)) ∧
      (∀ u v w : Value, (u == v) = true → (v == w) = true → (u == w) = true) ∧
      (∀ v : Value, (v == v) = true ↔ v.IsFreeOfNaN) ∧
      (∀ v w : Value, v.strictEq w = w.strictEq v) ∧
      (∀ u v w : Value, u.strictEq v = true → v.strictEq w = true → u.strictEq w = true) ∧
      (∀ v : Value, v.strictEq v = true ↔ ∀ d, v = .number d → d.isNaN = false) ∧
      (∀ (heap : Heap) (v w : Value), v.StoredIn heap → w.StoredIn heap → v.strictEq w = true →
        (v == v) = true → (v == w) = true) ∧
      ∀ s vs cs, Produced s vs cs → ∃ heap : Heap, ∀ v ∈ vs, v.StoredIn heap := by
  refine ⟨?_, ?_, ?_, ?_, ?_, ?_, ?_, ?_⟩
  · intro v w
    exact Bool.eq_iff_iff.2 ⟨Value.Same.symm, Value.Same.symm⟩
  · intro u v w huv hvw
    exact Value.Same.trans huv hvw
  · intro v
    exact Value.same_self_iff
  · intro v w
    exact Bool.eq_iff_iff.2 ⟨Value.strictEq_symm, Value.strictEq_symm⟩
  · intro u v w huv hvw
    exact Value.strictEq_trans huv hvw
  · intro v
    exact Value.strictEq_self_iff
  · intro heap v w hv hw h hself
    exact Value.same_of_strictEq hv hw h hself
  · intro s vs cs h
    obtain ⟨heap, hfits⟩ := exists_heap_of_produced h
    exact ⟨heap, hfits.values⟩

/-- A property that is NaN counts for nothing, wherever its instance stands. -/
theorem equalities_coherent_of_computed_nan :
    let odd := (CaseClass.define "Odd" (fun _ => return [("value", .number ⟨0x7FF8000000000000⟩)])
      ⟨0⟩).1
    let box := (CaseClass.withFields "Box" ["content"] ⟨1⟩).1
    let made := (odd.construct [.bool true] ⟨2⟩).1
    let first := (box.construct [made] ⟨3⟩).1
    let second := (box.construct [made] ⟨4⟩).1
    first.IsFreeOfNaN ∧ first.strictEq second = false ∧ (first == second) = true ∧
      (second == first) = true ∧
      ∃ heap : Heap, first.StoredIn heap ∧ first.strictEq first = true ∧
        (first == first) = true := by
  intro odd box made first second
  have hself : (first == first) = true := by decide
  have hsame : (first == second) = true := by decide
  obtain ⟨hsymm, -, hself_iff, -, -, hstrict_self_iff, hstrict, hheap⟩ := equalities_coherent
  -- One constructor call after the other, up to the second box.
  have hproduced : Produced ⟨5⟩ [second, first, made, .bool true] [box, odd] := by
    have hodd : Produced ⟨1⟩ [] [odd] :=
      (Produced.start ⟨0⟩).define fun _ _ _ _ _ _ =>
        makes_pure (List.forall_mem_singleton.2 (Value.storedIn_of_primitive rfl))
    have hbox : Produced ⟨2⟩ [] [box, odd] := hodd.withFields "Box" ["content"]
    have hmade : Produced ⟨3⟩ [made, .bool true] [box, odd] :=
      (hbox.primitive rfl).construct (List.mem_cons_of_mem _ List.mem_cons_self)
        (List.forall_mem_singleton.2 List.mem_cons_self)
    have hfirst : Produced ⟨4⟩ [first, made, .bool true] [box, odd] :=
      hmade.construct List.mem_cons_self (List.forall_mem_singleton.2 List.mem_cons_self)
    exact hfirst.construct List.mem_cons_self
      (List.forall_mem_singleton.2 (List.mem_cons_of_mem _ List.mem_cons_self))
  obtain ⟨heap, hstored⟩ := hheap _ _ _ hproduced
  have hfirst : first.StoredIn heap := hstored first (List.mem_cons_of_mem _ List.mem_cons_self)
  have hstrict_self : first.strictEq first = true :=
    (hstrict_self_iff first).2 fun _ hd => Value.noConfusion hd
  have hcontents := hstrict heap first first hfirst hfirst hstrict_self hself
  exact ⟨(hself_iff first).1 hself, by decide, hsame, (hsymm second first).trans hsame, heap,
    hfirst, hstrict_self, hcontents⟩

end Destructure
