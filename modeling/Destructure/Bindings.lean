import Destructure.Value.Equality
import Destructure.Value.Text

/-!
# Destructure.Bindings

What a match has found: names with values, in the order in which the names were bound first. Binding
a name again replaces its value and leaves it in its place.

No name stands twice, and that is part of the type.
-/

namespace Destructure

/-- Put a value under a name, in its place if the name is there and at the end if not. -/
def bindEntry (name : String) (value : Value) : List (String × Value) → List (String × Value)
  | [] => [(name, value)]
  | (n, v) :: rest =>
    if name = n then (name, value) :: rest else (n, v) :: bindEntry name value rest

/-- A name that is there keeps its place, and a new one goes to the end. -/
theorem names_bindEntry (name : String) (value : Value) (es : List (String × Value)) :
    (bindEntry name value es).map (·.1) =
      if name ∈ es.map (·.1) then es.map (·.1) else es.map (·.1) ++ [name] := by
  induction es with
  | nil => rfl
  | cons e es ih =>
    obtain ⟨n, v⟩ := e
    by_cases h : name = n
    · simp [bindEntry, h]
    · simp only [bindEntry, h, ↓reduceIte, List.map_cons, ih, List.mem_cons, false_or]
      split <;> rfl

theorem lookup_bindEntry (name name' : String) (value : Value) (es : List (String × Value)) :
    Properties.lookup name' (bindEntry name value es) =
      if name' = name then some value else Properties.lookup name' es := by
  induction es with
  | nil => rfl
  | cons e es ih =>
    obtain ⟨n, v⟩ := e
    simp only [bindEntry]
    split
    · subst_vars
      by_cases h : name' = n <;> simp [Properties.lookup, h]
    · rename_i hne
      by_cases h : name' = n
      · have hk : name' ≠ name := fun e => hne (e.symm.trans h)
        rw [Properties.lookup, if_pos h, if_neg hk, Properties.lookup, if_pos h]
      · rw [Properties.lookup, if_neg h, ih, Properties.lookup, if_neg h]

/-- Names with values. -/
structure Bindings where
  entries : List (String × Value)
  nodup : (entries.map (·.1)).Nodup

namespace Bindings

@[ext] theorem ext {b c : Bindings} (h : b.entries = c.entries) : b = c := by
  cases b
  cases c
  simp_all

/-- No names. -/
def empty : Bindings := ⟨[], List.nodup_nil⟩

instance : Inhabited Bindings := ⟨empty⟩

/-- Bind a name, in place of what it was bound to before. -/
def insert (name : String) (value : Value) (b : Bindings) : Bindings where
  entries := bindEntry name value b.entries
  nodup := by
    rw [names_bindEntry]
    split
    · exact b.nodup
    · rename_i h
      refine List.nodup_append.2 ⟨b.nodup, by simp, ?_⟩
      rintro n hn m hm rfl
      exact h (List.mem_singleton.1 hm ▸ hn)

/-- Bind names one after the other. -/
def insertAll (pairs : List (String × Value)) (b : Bindings) : Bindings :=
  pairs.foldl (fun b p => b.insert p.1 p.2) b

/-- The bindings that a list of pairs gives. -/
def ofList (pairs : List (String × Value)) : Bindings := empty.insertAll pairs

/-- The value of a name. -/
def get? (name : String) (b : Bindings) : Option Value := Properties.lookup name b.entries

def contains (name : String) (b : Bindings) : Bool := (b.get? name).isSome

/-- The names, in the order in which they were bound first. -/
def names (b : Bindings) : List String := b.entries.map (·.1)

def size (b : Bindings) : Nat := b.entries.length

def isEmpty (b : Bindings) : Bool := b.entries.isEmpty

/-- A binding that is inserted is what its name leads to; other names lead where they did. -/
theorem get?_insert (name name' : String) (value : Value) (b : Bindings) :
    (b.insert name value).get? name' = if name' = name then some value else b.get? name' :=
  lookup_bindEntry name name' value b.entries

theorem names_insert (name : String) (value : Value) (b : Bindings) :
    (b.insert name value).names = if name ∈ b.names then b.names else b.names ++ [name] :=
  names_bindEntry name value b.entries

/-- The same names in the same order, with values of equal contents. -/
instance : BEq Bindings := ⟨fun b c => Value.sameAsProperties b.entries c.entries⟩

/-- The bindings in braces. -/
def text (b : Bindings) : String :=
  "\x7b" ++ Value.commaSeparated (Value.textProperties b.entries) ++ "\x7d"

end Bindings

end Destructure
