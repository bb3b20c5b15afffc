import Destructure.Bindings
import Destructure.Proofs.Value.Lookup
import Mathlib.Data.Finset.Card

/-!
# Destructure.Proofs.Matching.Insertions

Bindings are a map that keeps the order of its insertions: `ofList_keeps_insertions`.

Design points:

* `ListsFirst` says which names there are and in which order, without a computation: a name stands
  before another one if it was inserted before it for the first time.
* The value of a name is told by the last insertion of it, as a cut of the list of insertions.
* Bindings are told apart by their names and by the value of each name alone
  (`Bindings.eq_of_get?`), so what insertions do is shown on these two views
  (`Bindings.names_insertAll`, `Bindings.get?_insertAll`).

Proof shape: one insertion keeps the order (`ListsFirst.insert`), and a list of insertions is taken
from its end. Inserting a list is the same as inserting what is left of it once it has been made
into bindings of its own, although that list is shorter and in another order
(`Bindings.insertAll_entries_insertAll`).
-/

namespace Destructure

/-! ### Many insertions -/

theorem eraseDups_of_nodup {names : List String} (h : names.Nodup) : names.eraseDups = names := by
  induction names with
  | nil => rfl
  | cons n names ih =>
    obtain ⟨hn, hnames⟩ := List.nodup_cons.1 h
    have hkeep : names.filter (fun m => !m == n) = names := by
      refine List.filter_eq_self.2 fun m hm => ?_
      have hne : m ≠ n := fun e => hn (e ▸ hm)
      simp [hne]
    rw [List.eraseDups_cons, hkeep, ih hnames]

/-- A name counts where it stands first. -/
theorem eraseDups_append_cons (seen : List String) (name : String) (names : List String) :
    (seen ++ name :: names).eraseDups =
      ((if name ∈ seen then seen else seen ++ [name]) ++ names).eraseDups := by
  by_cases h : name ∈ seen
  · have hdrop : (name :: names).removeAll seen = names.removeAll seen := by
      simp [List.removeAll, h]
    rw [if_pos h, List.eraseDups_append, List.eraseDups_append, hdrop]
  · rw [if_neg h, List.append_assoc, List.singleton_append]

namespace Bindings

theorem insertAll_append (b : Bindings) (pairs more : List (String × Value)) :
    b.insertAll (pairs ++ more) = (b.insertAll pairs).insertAll more := List.foldl_append

theorem insertAll_cons (b : Bindings) (p : String × Value) (pairs : List (String × Value)) :
    b.insertAll (p :: pairs) = (b.insert p.1 p.2).insertAll pairs := rfl

theorem mem_names_iff {b : Bindings} {name : String} :
    name ∈ b.names ↔ ∃ v, b.get? name = some v := by
  rw [← Option.isSome_iff_exists, Option.isSome_iff_ne_none]
  exact (not_iff_comm.1 lookup_eq_none_iff.symm).symm

/-- Names stand in the order in which they were bound first. -/
theorem names_insertAll (pairs : List (String × Value)) (b : Bindings) :
    (b.insertAll pairs).names = (b.names ++ pairs.map (·.1)).eraseDups := by
  induction pairs generalizing b with
  | nil =>
    have hkeep : b.names.eraseDups = b.names := eraseDups_of_nodup b.nodup
    rw [List.map_nil, List.append_nil, hkeep]
    rfl
  | cons p pairs ih =>
    rw [insertAll_cons, ih, names_insert, List.map_cons, eraseDups_append_cons]

/-- A name has the value that it was bound to last, so looking it up begins at the end. -/
theorem get?_insertAll (pairs : List (String × Value)) (b : Bindings) (name : String) :
    (b.insertAll pairs).get? name = (Properties.lookup name pairs.reverse).or (b.get? name) := by
  induction pairs generalizing b with
  | nil => rfl
  | cons p pairs ih =>
    rw [insertAll_cons, ih, get?_insert, List.reverse_cons, lookup_append, Option.or_assoc]
    by_cases h : name = p.1 <;> simp [Properties.lookup, h]

theorem get?_ofList (pairs : List (String × Value)) (name : String) :
    (ofList pairs).get? name = Properties.lookup name pairs.reverse := by
  rw [ofList, get?_insertAll]
  exact Option.or_none

/-! ### Bindings over bindings -/

theorem eq_of_get? {b c : Bindings} (hnames : b.names = c.names)
    (hget : ∀ name, b.get? name = c.get? name) : b = c :=
  Bindings.ext (eq_of_lookup b.nodup hnames hget)

/-- Names that were there keep their places, and the other ones follow in their order. -/
theorem names_insertAll_entries (b c : Bindings) :
    (b.insertAll c.entries).names = b.names ++ c.names.filter (· ∉ b.names) := by
  have hnew : c.names.removeAll b.names = c.names.filter (· ∉ b.names) := by
    simp [List.removeAll]
  have hnodup : (c.names.filter (· ∉ b.names)).Nodup := c.nodup.filter _
  have hb : b.names.eraseDups = b.names := eraseDups_of_nodup b.nodup
  have happend : (b.names ++ c.names).eraseDups =
      b.names.eraseDups ++ (c.names.removeAll b.names).eraseDups := List.eraseDups_append
  rw [names_insertAll]
  exact happend.trans (by rw [hb, hnew, eraseDups_of_nodup hnodup])

/-- What is laid over decides the values of its names, and of no other ones. -/
theorem get?_insertAll_entries (b c : Bindings) (name : String) :
    (b.insertAll c.entries).get? name = (c.get? name).or (b.get? name) := by
  rw [get?_insertAll, lookup_reverse name c.nodup]
  rfl

theorem insertAll_entries_insert (b c : Bindings) (name : String) (value : Value) :
    b.insertAll (c.insert name value).entries = (b.insertAll c.entries).insert name value := by
  refine eq_of_get? ?_ fun name' => ?_
  · rw [names_insert, names_insertAll_entries, names_insertAll_entries, names_insert]
    by_cases hc : name ∈ c.names
    · by_cases hb : name ∈ b.names <;> simp [hb, hc]
    · by_cases hb : name ∈ b.names <;> simp [hb, hc]
  · rw [get?_insert, get?_insertAll_entries, get?_insertAll_entries, get?_insert]
    by_cases hname : name' = name
    · rw [if_pos hname, if_pos hname, Option.some_or]
    · rw [if_neg hname, if_neg hname]

/-- Insertions may be made elsewhere first and laid over afterwards. -/
theorem insertAll_entries_insertAll (b c : Bindings) (pairs : List (String × Value)) :
    b.insertAll (c.insertAll pairs).entries = (b.insertAll c.entries).insertAll pairs := by
  induction pairs generalizing c with
  | nil => rfl
  | cons p pairs ih =>
    rw [insertAll_cons, insertAll_cons, ih, insertAll_entries_insert]

end Bindings

/-! ### First insertions -/

variable {names inserted : List String}

/-- The names are those that were inserted, each once, in the order of their first insertions. -/
structure ListsFirst (names inserted : List String) : Prop where
  nodup : names.Nodup
  mem_iff : ∀ name, name ∈ names ↔ name ∈ inserted
  order : names.Pairwise fun m n => inserted.idxOf m < inserted.idxOf n

namespace ListsFirst

/-- Later insertions do not move the first one. -/
theorem order_append (h : ListsFirst names inserted) (more : List String) :
    names.Pairwise fun m n => (inserted ++ more).idxOf m < (inserted ++ more).idxOf n := by
  refine h.order.imp_of_mem fun {m n} hm hn hlt => ?_
  rw [List.idxOf_append_of_mem ((h.mem_iff m).1 hm), List.idxOf_append_of_mem ((h.mem_iff n).1 hn)]
  exact hlt

theorem insert {b : Bindings} (h : ListsFirst b.names inserted) (name : String) (value : Value) :
    ListsFirst (b.insert name value).names (inserted ++ [name]) where
  nodup := (b.insert name value).nodup
  mem_iff m := by
    rw [Bindings.names_insert, List.mem_append, List.mem_singleton, ← h.mem_iff]
    by_cases hname : name ∈ b.names
    · rw [if_pos hname, or_iff_left_of_imp]
      rintro rfl
      exact hname
    · rw [if_neg hname, List.mem_append, List.mem_singleton]
  order := by
    rw [Bindings.names_insert]
    by_cases hname : name ∈ b.names
    · rw [if_pos hname]
      exact h.order_append [name]
    · rw [if_neg hname, List.pairwise_append]
      refine ⟨h.order_append [name], List.pairwise_singleton _ _, fun m hm n hn => ?_⟩
      have hnew : name ∉ inserted := fun hmem => hname ((h.mem_iff name).2 hmem)
      have hm := (h.mem_iff m).1 hm
      rw [List.mem_singleton.1 hn, List.idxOf_append_of_mem hm, List.idxOf_append_of_notMem hnew]
      exact Nat.lt_add_right _ (List.idxOf_lt_length_iff.2 hm)

theorem length_eq (h : ListsFirst names inserted) : names.length = inserted.toFinset.card := by
  have hset : names.toFinset = inserted.toFinset := by
    ext name
    rw [List.mem_toFinset, List.mem_toFinset, h.mem_iff]
  rw [← List.toFinset_card_of_nodup h.nodup, hset]

end ListsFirst

namespace Bindings

theorem listsFirst_ofList (pairs : List (String × Value)) :
    ListsFirst (ofList pairs).names (pairs.map (·.1)) := by
  induction pairs using List.reverseRecOn with
  | nil => exact ⟨List.nodup_nil, fun name => Iff.rfl, List.Pairwise.nil⟩
  | append_singleton pairs p ih =>
    rw [ofList, insertAll_append, List.map_append]
    exact ih.insert p.1 p.2

/-- A name has the value of its last insertion. -/
theorem get?_ofList_eq_some_iff {pairs : List (String × Value)} {name : String} {value : Value} :
    (ofList pairs).get? name = some value ↔
      ∃ before after, pairs = before ++ (name, value) :: after ∧ name ∉ after.map (·.1) := by
  rw [get?_ofList, lookup_eq_some_iff_append]
  constructor
  · rintro ⟨after, before, hpairs, hafter⟩
    refine ⟨before.reverse, after.reverse, ?_, ?_⟩
    · rw [← List.reverse_reverse pairs, hpairs]
      simp
    · simpa using hafter
  · rintro ⟨before, after, rfl, hafter⟩
    exact ⟨after.reverse, before.reverse, by simp, by simpa using hafter⟩

end Bindings

open Bindings

/-- **Bindings keep the order of their insertions.** Each name stands once, where it was inserted
first, with the value of its last insertion. It does not matter in how many lists the insertions
come. A list of insertions acts on any bindings as those that it makes by itself do, and these
make themselves. -/
theorem ofList_keeps_insertions (pairs : List (String × Value)) :
    ListsFirst (ofList pairs).names (pairs.map (·.1)) ∧
      (∀ name value, (ofList pairs).get? name = some value ↔
        ∃ before after, pairs = before ++ (name, value) :: after ∧ name ∉ after.map (·.1)) ∧
      (∀ name, (ofList pairs).get? name = none ↔ name ∉ pairs.map (·.1)) ∧
      (ofList pairs).size = (pairs.map (·.1)).toFinset.card ∧
      (∀ more, (ofList pairs).insertAll more = ofList (pairs ++ more)) ∧
      (∀ b : Bindings, b.insertAll pairs = b.insertAll (ofList pairs).entries) ∧
      ofList (ofList pairs).entries = ofList pairs := by
  have hfirst := listsFirst_ofList pairs
  have hreplay (b : Bindings) : b.insertAll pairs = b.insertAll (ofList pairs).entries :=
    (insertAll_entries_insertAll b .empty pairs).symm
  refine ⟨hfirst, fun _ _ => get?_ofList_eq_some_iff, fun name => ?_, ?_, fun more => ?_, hreplay,
    (hreplay .empty).symm⟩
  · rw [get?_ofList, lookup_eq_none_iff, List.map_reverse, List.mem_reverse]
  · rw [← hfirst.length_eq, Bindings.names, List.length_map]
    rfl
  · exact (insertAll_append .empty pairs more).symm

end Destructure
