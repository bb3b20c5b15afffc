/-!
# Destructure.Value.Properties

Properties of an object: pairs of a key and a value, in the order of their keys. Keys are ordered by
code points, which is also the order of their bytes in UTF-8.

Two statements say what `insert` does: what a key leads to after it (`lookup_insert`), and which
pairs there are (`mem_insert`).
-/

namespace Destructure.Properties

variable {α : Type}

/-- Put a value under a key. A value that was there before is replaced. -/
def insert (key : String) (value : α) : List (String × α) → List (String × α)
  | [] => [(key, value)]
  | (k, v) :: rest =>
    if key = k then (key, value) :: rest
    else if key < k then (key, value) :: (k, v) :: rest
    else (k, v) :: insert key value rest

/-- What stands under a key. -/
def lookup (key : String) : List (String × α) → Option α
  | [] => none
  | (k, v) :: rest => if key = k then some v else lookup key rest

/-- The properties that a list of pairs gives when they are put in one after the other. -/
def ofList (pairs : List (String × α)) : List (String × α) :=
  pairs.foldl (fun ps p => insert p.1 p.2 ps) []

/-- A value that is put under a key is what the key leads to; other keys lead where they did. -/
theorem lookup_insert (key key' : String) (value : α) (ps : List (String × α)) :
    lookup key' (insert key value ps) = if key' = key then some value else lookup key' ps := by
  induction ps with
  | nil => rfl
  | cons p ps ih =>
    obtain ⟨k, v⟩ := p
    simp only [insert]
    split
    · subst_vars
      by_cases h : key' = k <;> simp [lookup, h]
    · rename_i hne
      split
      · rfl
      · by_cases h : key' = k
        · have hk : key' ≠ key := fun e => hne (e.symm.trans h)
          rw [lookup, if_pos h, if_neg hk, lookup, if_pos h]
        · rw [lookup, if_neg h, ih, lookup, if_neg h]

theorem mem_insert {key : String} {value : α} {ps : List (String × α)} {p : String × α}
    (h : p ∈ insert key value ps) : p = (key, value) ∨ p ∈ ps := by
  induction ps with
  | nil => simpa [insert] using h
  | cons q ps ih =>
    simp only [insert] at h
    split at h
    · rcases List.mem_cons.1 h with h | h <;> simp [h]
    · split at h
      · rcases List.mem_cons.1 h with h | h <;> simp_all
      · rcases List.mem_cons.1 h with h | h
        · simp [h]
        · rcases ih h with h | h <;> simp [h]

end Destructure.Properties
