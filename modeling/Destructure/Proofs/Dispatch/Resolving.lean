import Destructure.Dispatch.Matcher
import Destructure.Proofs.Value.Lookup

/-!
# Destructure.Proofs.Dispatch.Resolving

However the texts of arms are turned into patterns, a dispatch comes to the same end, as long as the
patterns are those that the texts spell: `tryArms_eq_anew`.

A matcher does so if its cache is faithful, that is, if whatever is kept under a text is the pattern
that this text spells. Faithfulness lasts, whatever is looked up and through whatever handle.

Proof shape: `parseAndKeep_cases` says once what a text that was not kept can lead to, and all else
about caches follows from it. `Resolves` is what the dispatch loop needs to know, so the loop is
opened once.
-/

namespace Destructure

variable {α σ : Type} {s : CacheStore}

/-! ### Looking up a text -/

namespace CacheStore

/-- The store after an identity has been given away. -/
def afterFresh (s : CacheStore) : CacheStore := { s with supply := ⟨s.supply.next + 1⟩ }

/-- The pattern as a new thing. -/
def share (s : CacheStore) (p : Pattern) : SharedPattern := ⟨⟨s.supply.next⟩, p⟩

end CacheStore

/-- A text is no pattern, or there is a pattern under it by now, or it is read and then kept if
there is room. -/
theorem parseAndKeep_cases (c : Cache) (text : String) (s : CacheStore) :
    (∃ e, Pattern.parse text = .error e ∧ (c.parseAndKeep text s).result = .error e ∧
      (c.parseAndKeep text s).store = s) ∨
    (∃ p kept, Pattern.parse text = .ok p ∧ c.get? text s = some kept ∧
      (c.parseAndKeep text s).result = .ok kept ∧ (c.parseAndKeep text s).store = s.afterFresh) ∨
    (∃ p, Pattern.parse text = .ok p ∧ c.get? text s = none ∧
      (c.parseAndKeep text s).result = .ok (s.share p) ∧
      (c.parseAndKeep text s).store =
        if c.isFull s then s.afterFresh
        else s.afterFresh.setTable c.table (s.table c.table ++ [(text, s.share p)])) := by
  unfold Cache.parseAndKeep
  dsimp only
  cases hparse : (parseWhole (Cursor.ofString text)).result with
  | error e => exact .inl ⟨e, hparse, rfl, rfl⟩
  | ok p =>
    right
    have hfresh : freshIdentity.run s.supply = (⟨s.supply.next⟩, ⟨s.supply.next + 1⟩) := rfl
    -- Giving an identity away does not change what is kept.
    have hget : c.get? text ⟨s.tables, ⟨s.supply.next + 1⟩⟩ = c.get? text s := rfl
    have hfull : c.isFull ⟨s.tables, ⟨s.supply.next + 1⟩⟩ = c.isFull s := rfl
    dsimp only
    rw [hfresh]
    dsimp only
    rw [hget, hfull]
    cases c.get? text s with
    | some kept => exact .inl ⟨p, kept, hparse, rfl, rfl, rfl⟩
    | none =>
      refine .inr ⟨p, hparse, rfl, ?_⟩
      by_cases hfull : c.isFull s = true
      · simp only [if_pos hfull]
        exact ⟨rfl, rfl⟩
      · simp only [if_neg hfull]
        exact ⟨rfl, rfl⟩

/-- What is kept under a text is given, and the store stays as it is. -/
theorem getOrParse_of_get? {c : Cache} {text : String} {p : SharedPattern}
    (h : c.get? text s = some p) : c.getOrParse text s = ⟨.ok p, s, [.cacheHit text]⟩ := by
  rw [Cache.getOrParse, h]

/-- A text that nothing is kept under is read. -/
theorem getOrParse_of_get?_eq_none {c : Cache} {text : String} (h : c.get? text s = none) :
    c.getOrParse text s = c.parseAndKeep text s := by
  rw [Cache.getOrParse, h]

/-! ### Faithful tables -/

namespace CacheStore

/-- Whatever is kept under a text is the pattern that the text spells. -/
def Faithful (s : CacheStore) : Prop :=
  ∀ t ∈ s.tables, ∀ e ∈ t, Pattern.parse e.1 = .ok e.2.pattern

/-- Where no cache has been made, nothing wrong is kept. -/
theorem faithful_empty : Faithful {} := fun _ ht => absurd ht List.not_mem_nil

theorem Faithful.table (h : s.Faithful) (i : Nat) :
    ∀ e ∈ s.table i, Pattern.parse e.1 = .ok e.2.pattern := by
  intro e he
  unfold CacheStore.table at he
  cases ht : s.tables[i]? with
  | none =>
    rw [ht] at he
    exact absurd he List.not_mem_nil
  | some t =>
    rw [ht] at he
    exact h t (List.mem_of_getElem? ht) e he

/-- A faithful table may take the place of another one. -/
theorem Faithful.setTable (h : s.Faithful) {i : Nat} {t : Table}
    (ht : ∀ e ∈ t, Pattern.parse e.1 = .ok e.2.pattern) : (s.setTable i t).Faithful := by
  intro u hu
  rcases List.mem_or_eq_of_mem_set hu with hu | rfl
  · exact h u hu
  · exact ht

theorem Faithful.newCache (h : s.Faithful) (limit : Option Nat) :
    (s.newCache limit).2.Faithful := by
  intro t ht
  rcases List.mem_append.1 ht with ht | ht
  · exact h t ht
  · rw [List.mem_singleton.1 ht]
    exact fun _ he => absurd he List.not_mem_nil

theorem Faithful.clear (h : s.Faithful) (c : Cache) : (c.clear s).Faithful :=
  h.setTable fun _ he => absurd he List.not_mem_nil

theorem Faithful.get? (h : s.Faithful) {c : Cache} {text : String} {p : SharedPattern}
    (hget : c.get? text s = some p) : Pattern.parse text = .ok p.pattern :=
  h.table c.table _ (mem_of_lookup_eq_some hget)

/-- A lookup keeps a pattern only under the text that spells it. -/
theorem Faithful.parseAndKeep (h : s.Faithful) (c : Cache) (text : String) :
    (c.parseAndKeep text s).store.Faithful := by
  rcases parseAndKeep_cases c text s with
    ⟨e, -, -, hs⟩ | ⟨p, kept, -, -, -, hs⟩ | ⟨p, hp, -, -, hs⟩
  · rw [hs]
    exact h
  · rw [hs]
    exact h
  · rw [hs]
    by_cases hfull : c.isFull s = true
    · rw [if_pos hfull]
      exact h
    · rw [if_neg hfull]
      have hfresh : s.afterFresh.Faithful := h
      refine hfresh.setTable fun e he => ?_
      rcases List.mem_append.1 he with he | he
      · exact h.table c.table e he
      · rw [List.mem_singleton.1 he]
        exact hp

/-- A lookup that has not found its text gives what reading the text gives, also if somebody else
has
kept the pattern by now. -/
theorem Faithful.parseAndKeep_result (h : s.Faithful) (c : Cache) (text : String) :
    (c.parseAndKeep text s).result.map (·.pattern) = Pattern.parse text := by
  rcases parseAndKeep_cases c text s with
    ⟨e, hp, hr, -⟩ | ⟨p, kept, -, hget, hr, -⟩ | ⟨p, hp, -, hr, -⟩
  · rw [hr, hp]
    rfl
  · rw [hr, h.get? hget]
    rfl
  · rw [hr, hp]
    rfl

theorem Faithful.getOrParse (h : s.Faithful) (c : Cache) (text : String) :
    (c.getOrParse text s).store.Faithful := by
  cases hget : c.get? text s with
  | some p =>
    rw [getOrParse_of_get? hget]
    exact h
  | none =>
    rw [getOrParse_of_get?_eq_none hget]
    exact h.parseAndKeep c text

/-- A lookup gives what reading the text gives, whether the text was kept or not. -/
theorem Faithful.getOrParse_result (h : s.Faithful) (c : Cache) (text : String) :
    (c.getOrParse text s).result.map (·.pattern) = Pattern.parse text := by
  cases hget : c.get? text s with
  | some p =>
    rw [getOrParse_of_get? hget, h.get? hget]
    rfl
  | none =>
    rw [getOrParse_of_get?_eq_none hget]
    exact h.parseAndKeep_result c text

end CacheStore

/-! ### Ways to find patterns -/

/-- In a good state, every text leads to the pattern that it spells and to a good state. -/
structure Resolves (Good : σ → Prop) (resolve : String → σ → Resolved σ) : Prop where
  result : ∀ text s, Good s → (resolve text s).result = Pattern.parse text
  state : ∀ text s, Good s → Good (resolve text s).state

/-- A matcher finds the patterns that texts spell, with a cache or without one. -/
theorem resolves_matcher (m : Matcher α) : Resolves CacheStore.Faithful m.resolve := by
  constructor
  · intro text s h
    unfold Matcher.resolve
    cases m.cache with
    | none => rfl
    | some c => exact h.getOrParse_result c text
  · intro text s h
    unfold Matcher.resolve
    cases m.cache with
    | none => exact h
    | some c => exact h.getOrParse c text

variable {Good : σ → Prop} {resolve : String → σ → Resolved σ}

/-- A dispatch ends as if every text had been read anew, after the same guards and callbacks. -/
theorem tryArms_eq_anew (h : Resolves Good resolve) (v : Value) (index : Nat)
    (arms : List (Arm α)) {s : σ} (hs : Good s) :
    (tryArms resolve v index arms s).result = (tryArms resolveAnew v index arms ()).result ∧
      (tryArms resolve v index arms s).consulted =
        (tryArms resolveAnew v index arms ()).consulted ∧
      Good (tryArms resolve v index arms s).state := by
  induction arms generalizing index s with
  | nil => exact ⟨rfl, rfl, hs⟩
  | cons arm arms ih =>
    have hstate := h.state arm.pattern s hs
    have hanew : (resolveAnew arm.pattern ()).result = Pattern.parse arm.pattern := rfl
    rw [tryArms, tryArms]
    dsimp only
    rw [h.result arm.pattern s hs, hanew]
    cases Pattern.parse arm.pattern with
    | error e => exact ⟨rfl, rfl, hstate⟩
    | ok p =>
      dsimp only
      cases (p.attempt v .empty).verdict with
      | misuse typeName => exact ⟨rfl, rfl, hstate⟩
      | mismatch why => exact ih (index + 1) hstate
      | matched =>
        dsimp only
        obtain ⟨hresult, hconsulted, hgood⟩ := ih (index + 1) hstate
        rcases arm.handler.invoke (p.attempt v .empty).bindings v with ⟨result | result, consulted⟩
        · exact ⟨hresult, congrArg (consulted ++ ·) hconsulted, hgood⟩
        · exact ⟨rfl, rfl, hstate⟩

end Destructure
