import Destructure.Value.Properties
import Mathlib.Data.List.Nodup

/-!
# Destructure.Proofs.Value.Lookup

Looking up keys in lists of pairs: properties, bindings and cache tables are all such lists.

`lookup` takes the first pair with a key. As long as no key stands twice, that is the only one
(`lookup_eq_some_iff`), so neither the direction of the search (`lookup_reverse`) nor the order of
the pairs matters, and keys with their values are all that there is to a list (`eq_of_lookup`).
-/

namespace Destructure

variable {α : Type} {key : String} {a : α} {ps qs : List (String × α)}

theorem lookup_cons (key : String) (p : String × α) (ps : List (String × α)) :
    Properties.lookup key (p :: ps) =
      if key = p.1 then some p.2 else Properties.lookup key ps := rfl

theorem lookup_append (key : String) (ps qs : List (String × α)) :
    Properties.lookup key (ps ++ qs) =
      (Properties.lookup key ps).or (Properties.lookup key qs) := by
  induction ps with
  | nil => rfl
  | cons p ps ih =>
    rw [List.cons_append, lookup_cons, lookup_cons, ih]
    by_cases h : key = p.1 <;> simp [h]

theorem mem_of_lookup_eq_some (h : Properties.lookup key ps = some a) : (key, a) ∈ ps := by
  induction ps with
  | nil => cases h
  | cons p ps ih =>
    obtain ⟨k, b⟩ := p
    rw [lookup_cons] at h
    by_cases hk : key = k
    · rw [if_pos hk] at h
      cases h
      exact hk ▸ List.mem_cons_self
    · rw [if_neg hk] at h
      exact List.mem_cons_of_mem _ (ih h)

@[simp] theorem lookup_eq_none_iff :
    Properties.lookup key ps = none ↔ key ∉ ps.map (·.1) := by
  induction ps with
  | nil => simp [Properties.lookup]
  | cons p ps ih =>
    rw [lookup_cons, List.map_cons, List.mem_cons, not_or, ← ih]
    by_cases h : key = p.1 <;> simp [h]

/-- What is found is the first pair with the key. -/
theorem lookup_eq_some_iff_append :
    Properties.lookup key ps = some a ↔
      ∃ before after, ps = before ++ (key, a) :: after ∧ key ∉ before.map (·.1) := by
  constructor
  · intro h
    induction ps with
    | nil => cases h
    | cons p ps ih =>
      obtain ⟨k, b⟩ := p
      rw [lookup_cons] at h
      by_cases hk : key = k
      · rw [if_pos hk] at h
        cases h
        exact ⟨[], ps, hk ▸ rfl, List.not_mem_nil⟩
      · rw [if_neg hk] at h
        obtain ⟨before, after, rfl, hbefore⟩ := ih h
        exact ⟨(k, b) :: before, after, rfl, List.not_mem_cons_of_ne_of_not_mem hk hbefore⟩
  · rintro ⟨before, after, rfl, hbefore⟩
    rw [lookup_append, lookup_eq_none_iff.2 hbefore, Option.none_or, lookup_cons, if_pos rfl]

/-! ### No key twice -/

theorem lookup_eq_some_iff (h : (ps.map (·.1)).Nodup) :
    Properties.lookup key ps = some a ↔ (key, a) ∈ ps := by
  refine ⟨mem_of_lookup_eq_some, fun hmem => ?_⟩
  induction ps with
  | nil => cases hmem
  | cons p ps ih =>
    obtain ⟨hp, hps⟩ := List.nodup_cons.1 h
    rw [lookup_cons]
    rcases List.mem_cons.1 hmem with rfl | hmem
    · exact if_pos rfl
    · have hne : key ≠ p.1 := by
        rintro rfl
        exact hp (List.mem_map.2 ⟨_, hmem, rfl⟩)
      rw [if_neg hne]
      exact ih hps hmem

/-- If no key stands twice, it does not matter from which end one looks. -/
theorem lookup_reverse (key : String) (h : (ps.map (·.1)).Nodup) :
    Properties.lookup key ps.reverse = Properties.lookup key ps := by
  have hreverse : (ps.reverse.map (·.1)).Nodup := by
    rw [List.map_reverse]
    exact List.nodup_reverse.2 h
  refine Option.ext fun a => ?_
  rw [lookup_eq_some_iff hreverse, lookup_eq_some_iff h, List.mem_reverse]

/-- Keys in their order, none twice, and a value for each: there is no more to such a list. -/
theorem eq_of_lookup (hps : (ps.map (·.1)).Nodup) (hkeys : ps.map (·.1) = qs.map (·.1))
    (hlookup : ∀ key, Properties.lookup key ps = Properties.lookup key qs) : ps = qs := by
  induction ps generalizing qs with
  | nil => exact (List.map_eq_nil_iff.1 hkeys.symm).symm
  | cons p ps ih =>
    obtain ⟨q, qs, rfl⟩ : ∃ q qs', qs = q :: qs' :=
      List.exists_cons_of_ne_nil (by rintro rfl; cases hkeys)
    obtain ⟨hkey, hrest⟩ := List.cons.inj hkeys
    obtain ⟨hp, hnodup⟩ := List.nodup_cons.1 hps
    have hvalue := hlookup p.1
    rw [lookup_cons, if_pos rfl, lookup_cons, if_pos hkey] at hvalue
    have htail : ps = qs := by
      refine ih hnodup hrest fun key => ?_
      by_cases hk : key = p.1
      · rw [lookup_eq_none_iff.2 (hk ▸ hp), lookup_eq_none_iff.2 (by rw [← hrest]; exact hk ▸ hp)]
      · have hskip := hlookup key
        have hk' : key ≠ q.1 := fun h => hk (h.trans hkey.symm)
        rwa [lookup_cons, if_neg hk, lookup_cons, if_neg hk'] at hskip
    rw [htail, Prod.ext hkey (Option.some.inj hvalue)]

/-! ### Properties made from pairs -/

/-- Of two pairs with one key the later counts. -/
theorem lookup_ofList (key : String) (pairs : List (String × α)) :
    Properties.lookup key (Properties.ofList pairs) = Properties.lookup key pairs.reverse := by
  suffices ∀ ps : List (String × α), Properties.lookup key
      (pairs.foldl (fun ps p => Properties.insert p.1 p.2 ps) ps) =
        (Properties.lookup key pairs.reverse).or (Properties.lookup key ps) from
    (this []).trans Option.or_none
  induction pairs with
  | nil => exact fun ps => rfl
  | cons p pairs ih =>
    intro ps
    rw [List.foldl_cons, ih, Properties.lookup_insert, List.reverse_cons, lookup_append,
      Option.or_assoc, lookup_cons]
    by_cases h : key = p.1 <;> simp [Properties.lookup, h]

end Destructure
