import Destructure.Value.CaseClass

/-!
# Destructure.Proofs.Value.Identities

Containers of one identity are one container, as long as values are made by the ways that there are
to make them.

Design points:

* A value is never changed, so a `Heap` is only a record of what was made. It says for each identity
  that was given away what container got it.
* `Makes` is what a computation that makes values promises. It starts anywhere and leaves all that
  was made before as it was, so promises can be put one after the other (`makes_bind`).
* What a case class makes is up to its initializer, and so it has to keep the promise too
  (`MakesProperties`).

Proof shape: each constructor of a value or a class keeps its promise (`makes_newArray` and so on).
By induction on what was made (`Produced`), there is one heap for all of it:
`exists_heap_of_produced`.
-/

namespace Destructure

variable {α β : Type}

namespace Value

/-- The identity of a container. -/
def identity? : Value → Option Identity
  | array i _ => some i
  | object i _ _ => some i
  | inst i _ _ _ => some i
  | _ => none

/-- What stands in a container. -/
def parts : Value → List Value
  | array _ items => items
  | object _ _ properties => properties.map (·.2)
  | inst _ _ arguments properties => arguments ++ properties.map (·.2)
  | _ => []

end Value

/-- What container each identity belongs to, for those that were given away. -/
abbrev Heap := Identity → Option Value

namespace Heap

/-- No identity was used that the supply still has. -/
def Below (heap : Heap) (s : Supply) : Prop := ∀ i v, heap i = some v → i.index < s.next

/-- What was made before is still the same. -/
def GrowsTo (heap heap' : Heap) : Prop := ∀ i v, heap i = some v → heap' i = some v

theorem GrowsTo.refl (heap : Heap) : heap.GrowsTo heap := fun _ _ h => h

theorem GrowsTo.trans {heap heap' heap'' : Heap} (h : heap.GrowsTo heap')
    (h' : heap'.GrowsTo heap'') : heap.GrowsTo heap'' := fun i v hv => h' i v (h i v hv)

end Heap

/-- Each container inside the value, and the value itself if it is one, is that of its identity. -/
inductive Value.StoredIn (heap : Heap) : Value → Prop
  | intro {v : Value} : (∀ i, v.identity? = some i → heap i = some v) →
      (∀ x ∈ v.parts, StoredIn heap x) → StoredIn heap v

variable {heap heap' : Heap}

theorem Value.StoredIn.of_grows {v : Value} (h : v.StoredIn heap) (hgrows : heap.GrowsTo heap') :
    v.StoredIn heap' := by
  induction h with
  | intro hown _ ih => exact .intro (fun i hi => hgrows i _ (hown i hi)) ih

theorem Value.StoredIn.heap_eq {v : Value} {i : Identity} (h : v.StoredIn heap)
    (hi : v.identity? = some i) : heap i = some v := by
  cases h with
  | intro hown _ => exact hown i hi

theorem Value.StoredIn.part {v x : Value} (h : v.StoredIn heap) (hx : x ∈ v.parts) :
    x.StoredIn heap := by
  cases h with
  | intro _ hparts => exact hparts x hx

/-- A primitive value has no identity and no parts. -/
theorem Value.storedIn_of_primitive {v : Value} (hv : v.isKeyed = false) : v.StoredIn heap := by
  cases v with
  | array | object | inst => cases hv
  | _ => exact .intro nofun (List.forall_mem_nil _)

/-! ### Computations that make values -/

/-- Whenever it is run, the computation keeps what was made before, and its result is as `post` says
of the heap in the end. -/
def Makes (x : Fresh α) (heap : Heap) (post : Heap → α → Prop) : Prop :=
  ∀ s, heap.Below s →
    ∃ heap', heap.GrowsTo heap' ∧ heap'.Below (x s).2 ∧ post heap' (x s).1

theorem makes_pure {post : Heap → α → Prop} {a : α} (h : post heap a) :
    Makes (pure a) heap post :=
  fun _ hbelow => ⟨heap, .refl heap, hbelow, h⟩

/-- A computation in two parts keeps its promise if both parts do. -/
theorem makes_bind {x : Fresh α} {f : α → Fresh β} {mid : Heap → α → Prop} {post : Heap → β → Prop}
    (hx : Makes x heap mid)
    (hf : ∀ heap' a, heap.GrowsTo heap' → mid heap' a → Makes (f a) heap' post) :
    Makes (x >>= f) heap post := by
  intro s hbelow
  obtain ⟨heap', hgrows, hbelow', ha⟩ := hx s hbelow
  obtain ⟨heap'', hgrows', hbelow'', hb⟩ := hf heap' _ hgrows ha (x s).2 hbelow'
  exact ⟨heap'', hgrows.trans hgrows', hbelow'', hb⟩

/-- A new container gets an identity that no other has. -/
theorem makes_container {new : Identity → Value} (hid : ∀ i, (new i).identity? = some i)
    (hparts : ∀ i, ∀ x ∈ (new i).parts, x.StoredIn heap) :
    Makes (do return new (← freshIdentity)) heap fun heap' v => v.StoredIn heap' := by
  intro s hbelow
  let i : Identity := ⟨s.next⟩
  let heap' : Heap := fun j => if j = i then some (new i) else heap j
  -- Nothing is overwritten, since the identity has come out of the supply only now.
  have hgrows : heap.GrowsTo heap' := by
    intro j v hv
    have hj : j ≠ i := by
      rintro rfl
      exact Nat.lt_irrefl _ (hbelow i v hv)
    exact (if_neg hj).trans hv
  refine ⟨heap', hgrows, ?_, .intro ?_ fun x hx => (hparts i x hx).of_grows hgrows⟩
  · intro j v hv
    by_cases hj : j = i
    · rw [hj]
      exact Nat.lt_succ_self s.next
    · exact Nat.lt_succ_of_lt (hbelow j v ((if_neg hj).symm.trans hv))
  · intro j hj
    obtain rfl := Option.some.inj ((hid i).symm.trans hj)
    exact if_pos rfl

/-- A new array is stored, if its items are. -/
theorem makes_newArray {items : List Value} (h : ∀ x ∈ items, x.StoredIn heap) :
    Makes (Value.newArray items) heap fun heap' v => v.StoredIn heap' :=
  makes_container (fun _ => rfl) fun _ => h

theorem mem_of_mem_ofList {pairs : List (String × α)} {p : String × α}
    (h : p ∈ Properties.ofList pairs) : p ∈ pairs := by
  suffices ∀ ps : List (String × α),
      p ∈ pairs.foldl (fun ps p => Properties.insert p.1 p.2 ps) ps → p ∈ ps ∨ p ∈ pairs by
    exact (this [] h).resolve_left List.not_mem_nil
  clear h
  induction pairs with
  | nil => exact fun ps h => .inl h
  | cons q pairs ih =>
    intro ps h
    rcases ih _ h with h | h
    · rcases Properties.mem_insert h with rfl | h
      · exact .inr List.mem_cons_self
      · exact .inl h
    · exact .inr (List.mem_cons_of_mem _ h)

/-- The values of all properties are stored. -/
def StoredProperties (heap : Heap) (properties : List (String × Value)) : Prop :=
  ∀ p ∈ properties, p.2.StoredIn heap

theorem StoredProperties.mem_values {ps : List (String × Value)} (h : StoredProperties heap ps) :
    ∀ x ∈ ps.map (·.2), x.StoredIn heap := by
  intro x hx
  obtain ⟨p, hp, rfl⟩ := List.mem_map.1 hx
  exact h p hp

theorem StoredProperties.ofList {pairs : List (String × Value)} (h : StoredProperties heap pairs) :
    StoredProperties heap (Properties.ofList pairs) :=
  fun p hp => h p (mem_of_mem_ofList hp)

theorem makes_newObject {tag : Option String} {pairs : List (String × Value)}
    (h : StoredProperties heap pairs) :
    Makes (Value.newObject tag pairs) heap fun heap' v => v.StoredIn heap' :=
  makes_container (fun _ => rfl) fun _ => h.ofList.mem_values

/-! ### Case classes -/

/-- At any time from `heap` on, from stored arguments the initializer makes stored properties. -/
def MakesProperties (heap : Heap) (init : List Value → Fresh (List (String × Value))) : Prop :=
  ∀ heap' arguments, heap.GrowsTo heap' → (∀ x ∈ arguments, x.StoredIn heap') →
    Makes (init arguments) heap' StoredProperties

theorem MakesProperties.of_grows {init : List Value → Fresh (List (String × Value))}
    (h : MakesProperties heap init) (hgrows : heap.GrowsTo heap') : MakesProperties heap' init :=
  fun _ arguments hgrows' => h _ arguments (hgrows.trans hgrows')

theorem makes_define {name : String} {init : List Value → Fresh (List (String × Value))}
    (h : MakesProperties heap init) :
    Makes (CaseClass.define name init) heap fun heap' c =>
      MakesProperties heap' c.propertiesOf := by
  intro s hbelow
  refine ⟨heap, .refl heap, fun i v hv => Nat.lt_succ_of_lt (hbelow i v hv), ?_⟩
  intro heap' arguments hgrows harguments
  exact makes_bind (h heap' arguments hgrows harguments) fun _ _ _ hps => makes_pure hps.ofList

theorem storedProperties_fieldValues (fields : List String) {arguments : List Value}
    (h : ∀ x ∈ arguments, x.StoredIn heap) :
    StoredProperties heap (CaseClass.fieldValues fields arguments) := by
  have hundefined : Value.undefined.StoredIn heap := Value.storedIn_of_primitive rfl
  induction fields generalizing arguments with
  | nil => exact List.forall_mem_nil _
  | cons field fields ih =>
    cases arguments with
    | nil => exact List.forall_mem_cons.2 ⟨hundefined, ih h⟩
    | cons x arguments =>
      obtain ⟨hx, harguments⟩ := List.forall_mem_cons.1 h
      exact List.forall_mem_cons.2 ⟨hx, ih harguments⟩

/-- A new instance is stored, if its arguments are and if its class computes stored properties. -/
theorem makes_construct {c : CaseClass} {arguments : List Value}
    (hc : MakesProperties heap c.propertiesOf) (h : ∀ x ∈ arguments, x.StoredIn heap) :
    Makes (c.construct arguments) heap fun heap' v => v.StoredIn heap' := by
  refine makes_bind (hc heap arguments (.refl heap) h) fun heap' properties hgrows hps => ?_
  refine makes_container (fun _ => rfl) fun _ => List.forall_mem_append.2 ⟨?_, hps.mem_values⟩
  exact fun x hx => (h x hx).of_grows hgrows

/-! ### Whatever is made -/

/-- All values and classes that were made so far, by one constructor after the other. What a value
holds can be taken out of it. -/
inductive Produced : Supply → List Value → List CaseClass → Prop
  | start (s : Supply) : Produced s [] []
  | primitive {s : Supply} {vs : List Value} {cs : List CaseClass} {v : Value} :
      Produced s vs cs → v.isKeyed = false → Produced s (v :: vs) cs
  | part {s : Supply} {vs : List Value} {cs : List CaseClass} {v x : Value} :
      Produced s vs cs → v ∈ vs → x ∈ v.parts → Produced s (x :: vs) cs
  | array {s : Supply} {vs : List Value} {cs : List CaseClass} {items : List Value} :
      Produced s vs cs → (∀ x ∈ items, x ∈ vs) →
      Produced (Value.newArray items s).2 ((Value.newArray items s).1 :: vs) cs
  | object {s : Supply} {vs : List Value} {cs : List CaseClass} {tag : Option String}
      {pairs : List (String × Value)} :
      Produced s vs cs → (∀ p ∈ pairs, p.2 ∈ vs) →
      Produced (Value.newObject tag pairs s).2 ((Value.newObject tag pairs s).1 :: vs) cs
  /-- An initializer may use all values that there are. -/
  | define {s : Supply} {vs : List Value} {cs : List CaseClass} {name : String}
      {init : List Value → Fresh (List (String × Value))} :
      Produced s vs cs →
      (∀ heap : Heap, (∀ v ∈ vs, v.StoredIn heap) → MakesProperties heap init) →
      Produced (CaseClass.define name init s).2 vs ((CaseClass.define name init s).1 :: cs)
  | construct {s : Supply} {vs : List Value} {cs : List CaseClass} {c : CaseClass}
      {arguments : List Value} :
      Produced s vs cs → c ∈ cs → (∀ x ∈ arguments, x ∈ vs) →
      Produced (c.construct arguments s).2 ((c.construct arguments s).1 :: vs) cs

theorem Produced.withFields {s : Supply} {vs : List Value} {cs : List CaseClass}
    (h : Produced s vs cs) (name : String) (fields : List String) :
    Produced (CaseClass.withFields name fields s).2 vs
      ((CaseClass.withFields name fields s).1 :: cs) :=
  h.define fun _ _ _ _ _ harguments => makes_pure (storedProperties_fieldValues fields harguments)

/-- The heap goes with the values and classes made so far. -/
structure Heap.Fits (heap : Heap) (s : Supply) (vs : List Value) (cs : List CaseClass) : Prop where
  below : heap.Below s
  values : ∀ v ∈ vs, v.StoredIn heap
  classes : ∀ c ∈ cs, MakesProperties heap c.propertiesOf

theorem Heap.Fits.more {s s' : Supply} {vs : List Value} {cs : List CaseClass}
    (h : heap.Fits s vs cs) (hgrows : heap.GrowsTo heap') (hbelow : heap'.Below s') :
    heap'.Fits s' vs cs where
  below := hbelow
  values := fun v hv => (h.values v hv).of_grows hgrows
  classes := fun c hc => (h.classes c hc).of_grows hgrows

theorem Heap.Fits.value {s : Supply} {vs : List Value} {cs : List CaseClass} {v : Value}
    (h : heap.Fits s vs cs) (hv : v.StoredIn heap) : heap.Fits s (v :: vs) cs :=
  { h with values := List.forall_mem_cons.2 ⟨hv, h.values⟩ }

theorem Heap.Fits.makes_value {s : Supply} {vs : List Value} {cs : List CaseClass}
    {x : Fresh Value} (h : heap.Fits s vs cs)
    (hx : Makes x heap fun heap' v => v.StoredIn heap') :
    ∃ heap' : Heap, heap'.Fits (x s).2 ((x s).1 :: vs) cs := by
  obtain ⟨heap', hgrows, hbelow, hv⟩ := hx s h.below
  exact ⟨heap', (h.more hgrows hbelow).value hv⟩

/-- All that is made at one time can be kept in one heap. -/
theorem exists_heap_of_produced {s : Supply} {vs : List Value} {cs : List CaseClass}
    (h : Produced s vs cs) : ∃ heap : Heap, heap.Fits s vs cs := by
  induction h with
  | start s => exact ⟨fun _ => none, nofun, nofun, nofun⟩
  | @primitive s vs cs v _ hv ih =>
    obtain ⟨heap, hfits⟩ := ih
    exact ⟨heap, hfits.value (Value.storedIn_of_primitive hv)⟩
  | @part s vs cs v x _ hv hx ih =>
    obtain ⟨heap, hfits⟩ := ih
    exact ⟨heap, hfits.value ((hfits.values v hv).part hx)⟩
  | array _ hitems ih =>
    obtain ⟨heap, hfits⟩ := ih
    exact hfits.makes_value (makes_newArray fun x hx => hfits.values x (hitems x hx))
  | object _ hpairs ih =>
    obtain ⟨heap, hfits⟩ := ih
    exact hfits.makes_value (makes_newObject fun p hp => hfits.values _ (hpairs p hp))
  | @define s vs cs name init _ hinit ih =>
    obtain ⟨heap, hfits⟩ := ih
    have hmakes : Makes (CaseClass.define name init) heap fun heap' c =>
        MakesProperties heap' c.propertiesOf := makes_define (hinit heap hfits.values)
    obtain ⟨heap', hgrows, hbelow, hc⟩ := hmakes s hfits.below
    have hfits' := hfits.more hgrows hbelow
    exact ⟨heap', { hfits' with classes := List.forall_mem_cons.2 ⟨hc, hfits'.classes⟩ }⟩
  | @construct s vs cs c arguments _ hc harguments ih =>
    obtain ⟨heap, hfits⟩ := ih
    exact hfits.makes_value
      (makes_construct (hfits.classes c hc) fun x hx => hfits.values x (harguments x hx))

end Destructure
