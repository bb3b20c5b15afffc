import Destructure.Proofs.Parsing.Finds

/-!
# Destructure.Proofs.Parsing.Fails

`Step.Fails s e f`: the step fails with the error `e` and stops at `f`.

This is the other half of `Step.Finds`, with one equivalence for each way of putting steps together
and for each kind of token. A list needs more than that: it fails itself, or an element of it does,
after any number of rounds. `fails_parseSlots` tells of one round, as `finds_parseSlots` does.
-/

namespace Destructure

open Text

open ParseError (here between)

variable {α β : Type} {c d : Cursor} {e : ParseError} {f : Cursor}

namespace Step

/-- The step fails with `e` and stops at `f`. -/
def Fails (s : Step α c) (e : ParseError) (f : Cursor) : Prop := s.result = .error e ∧ s.next = f

/-- A step that finds something does not fail. -/
theorem not_fails_of_finds {s : Step α c} {a : α} (h : s.Finds a d) : ¬ s.Fails e f := by
  intro hfails
  cases h.1.symm.trans hfails.1

@[simp] theorem not_fails_done {a : α} (h : c ≤ d) : ¬ (done a d h).Fails e f := by
  simp [Fails, done]

@[simp] theorem fails_fail {err : ParseError} (h : c ≤ d) :
    (fail err d h : Step α c).Fails e f ↔ err = e ∧ d = f := by
  simp [Fails, fail]

@[simp] theorem fails_since {s : Step α d} (h : c ≤ d) : (since h s).Fails e f ↔ s.Fails e f :=
  Iff.rfl

@[simp] theorem fails_after {s : Step α c} (event : ParseEvent) :
    (s.after event).Fails e f ↔ s.Fails e f := Iff.rfl

@[simp] theorem fails_called {s : Step α c} (offset : Nat) :
    (s.called offset).Fails e f ↔ s.Fails e f := Iff.rfl

/-- An error on its way out has this production named in it. -/
@[simp] theorem fails_within {s : Step α c} (p : Production) :
    (s.within p).Fails e f ↔ ∃ err, s.Fails err f ∧ err.within p = e := by
  unfold Fails within
  cases s.result with
  | error err =>
    constructor
    · intro h
      exact ⟨err, ⟨rfl, h.2⟩, Except.error.inj h.1⟩
    · intro h
      obtain ⟨_, ⟨⟨⟩, hf⟩, rfl⟩ := h
      exact ⟨rfl, hf⟩
  | ok a =>
    constructor
    · intro h
      cases h.1
    · intro h
      obtain ⟨_, ⟨⟨⟩, -⟩, -⟩ := h

@[simp] theorem fails_map {s : Step α c} {g : α → β} : (s.map g).Fails e f ↔ s.Fails e f := by
  unfold Fails map
  cases s.result <;> simp [Except.map]

/-- A sequence fails in its first step, or in the second one after the first has found something. -/
@[simp] theorem fails_bind {s : Step α c} {k : α → (d : Cursor) → c ≤ d → Step β d} :
    (s.bind k).Fails e f ↔
      s.Fails e f ∨ ∃ a g, ∃ h : c ≤ g, s.Finds a g ∧ (k a g h).Fails e f := by
  unfold Fails Finds bind
  constructor
  · intro h
    split at h
    · rename_i err herr
      exact .inl ⟨herr.trans (congrArg Except.error (Except.error.inj h.1)), h.2⟩
    · rename_i a ha
      exact .inr ⟨a, s.next, s.le_next, ⟨ha, rfl⟩, h⟩
  · rintro (⟨he, hf⟩ | ⟨a, g, h, ⟨ha, rfl⟩, hk⟩)
    · rw [he]
      exact ⟨rfl, hf⟩
    · rw [ha]
      exact hk

end Step

variable {s : Series} {span : Span}

/-- A slot fails if it is empty where it must not be, or if its element fails. -/
theorem fails_parseSlot {x : Char} {hd : c ≤ d} {element : (d : Cursor) → c ≤ d → Step α d} :
    (parseSlot s x d hd element).Fails e f ↔
      (x = s.separator ∧ s.allowsBlanks = false ∧ s.emptySlot d = e ∧ d = f) ∨
        (x ≠ s.separator ∧ (element d hd).Fails e f) := by
  unfold parseSlot
  by_cases hx : x = s.separator
  · cases hb : s.allowsBlanks <;> simp [hx]
  · simp [hx]

/-- One round of a list that fails: the text ends before the slot or after it, the slot fails,
something else follows it than should, or a later round fails. -/
theorem fails_parseSlots {hd : c ≤ d} {element : (d : Cursor) → c ≤ d → Step α d} :
    (parseSlots s span element d hd).Fails e f ↔
    (d.skipSpace.ahead = [] ∧ s.unclosed span d.skipSpace = e ∧ d.skipSpace = f) ∨
      ∃ x, ∃ h : c ≤ d.skipSpace, d.skipSpace.current = some x ∧ x ≠ s.terminator ∧
        ((parseSlot s x d.skipSpace h element).Fails e f ∨
          ∃ slot g, (parseSlot s x d.skipSpace h element).Finds slot g ∧
            ((g.skipSpace.ahead = [] ∧ s.unclosed span g.skipSpace = e ∧ g.skipSpace = f) ∨
              ∃ y, g.skipSpace.current = some y ∧ y ≠ s.terminator ∧
                ((y ≠ s.separator ∧ s.unseparated y g.skipSpace = e ∧ g.skipSpace = f) ∨
                  ∃ h' : c ≤ g.skipSpace.advance, y = s.separator ∧
                    (parseSlots s span element g.skipSpace.advance h').Fails e f))) := by
  rw [parseSlots]
  dsimp only
  constructor
  · intro h
    split at h
    · rename_i hend
      exact .inl ⟨List.head?_eq_none_iff.1 hend, (Step.fails_fail _).1 h⟩
    · rename_i x hx
      refine .inr ⟨x, c.le_trans hd d.le_skipSpace, hx, ?_⟩
      split at h
      · exact absurd h (Step.not_fails_done _)
      · rename_i hxt
        refine ⟨hxt, ?_⟩
        simp only [Step.fails_bind, Step.fails_since, Step.finds_since] at h
        refine h.imp id ?_
        rintro ⟨slot, g, hg, hslot, h⟩
        refine ⟨slot, g, hslot, ?_⟩
        split at h
        · rename_i hend
          exact .inl ⟨hend, (Step.fails_fail _).1 h⟩
        · rename_i y ys hy
          refine .inr ⟨y, Cursor.current_eq_some.2 ⟨ys, hy⟩, ?_⟩
          split at h
          · exact absurd h (Step.not_fails_done _)
          · rename_i hyt
            refine ⟨hyt, ?_⟩
            split at h
            · rename_i hys
              simp only [Step.fails_since, Step.fails_map] at h
              exact .inr ⟨_, hys, h⟩
            · rename_i hys
              exact .inl ⟨hys, (Step.fails_fail _).1 h⟩
  · rintro (⟨hend, he, hf⟩ | ⟨x, hcd, hx, hxt, hround⟩)
    · have hnone : d.skipSpace.current = none := List.head?_eq_none_iff.2 hend
      rw [hnone]
      exact (Step.fails_fail _).2 ⟨he, hf⟩
    · rw [hx]
      dsimp only
      rw [if_neg hxt]
      simp only [Step.fails_bind, Step.fails_since, Step.finds_since]
      refine hround.imp id ?_
      rintro ⟨slot, g, hslot, hafter⟩
      refine ⟨slot, g, d.le_trans d.le_skipSpace hslot.le, hslot, ?_⟩
      rcases hafter with ⟨hend, he, hf⟩ | ⟨y, hy, hyt, hafter⟩
      · split
        · exact (Step.fails_fail _).2 ⟨he, hf⟩
        · rename_i hcons
          cases hend.symm.trans hcons
      · obtain ⟨ys, hys⟩ := Cursor.current_eq_some.1 hy
        split
        · rename_i hnil
          cases hys.symm.trans hnil
        · rename_i z zs hzs
          obtain ⟨rfl, -⟩ := List.cons.inj (hys.symm.trans hzs)
          rw [if_neg hyt]
          rcases hafter with ⟨hsep, he, hf⟩ | ⟨h', hsep, hmore⟩
          · rw [if_neg hsep]
            exact (Step.fails_fail _).2 ⟨he, hf⟩
          · rw [if_pos hsep, Step.fails_since, Step.fails_map]
            exact hmore

/-! ### Words, numbers, strings and the end -/

theorem ParseError.unexpected_of_current {x : Char} (expected : String) (h : c.current = some x) :
    unexpected expected c = here (.unexpectedCharacter x expected) c := by
  simp [unexpected, h]

theorem ParseError.unexpected_of_ahead_nil (expected : String) (h : c.ahead = []) :
    unexpected expected c = here (.unexpectedEnd expected) c := by
  simp [unexpected, Cursor.current, h]

/-- A word fails at the end of the text and at a character that no word starts with. -/
theorem fails_parseWord :
    (parseWord c).Fails e f ↔
      c = f ∧ ((c.ahead = [] ∧ here (.unexpectedEnd "an identifier") c = e) ∨
        ∃ x, c.current = some x ∧ isWordStart x = false ∧ here (.invalidIdentifier x) c = e) := by
  unfold parseWord
  cases hx : c.current with
  | none =>
    have hend : c.ahead = [] := List.head?_eq_none_iff.1 hx
    simp [hend, ParseError.unexpected_of_ahead_nil, and_comm]
  | some x =>
    obtain ⟨rest, hr⟩ := Cursor.current_eq_some.1 hx
    cases hstart : isWordStart x <;> simp [hstart, hr, and_comm]

/-- A number fails if the run of characters ahead that could be one is none. -/
theorem fails_parseNumber :
    (parseNumber c).Fails e f ↔
      number? (c.ahead.takeWhile isNumberPart) = none ∧
        (between (.invalidNumber (String.ofList (c.ahead.takeWhile isNumberPart))) c
          (c.skipWhile isNumberPart)).within .number = e ∧ c.skipWhile isNumberPart = f := by
  unfold parseNumber
  dsimp only
  cases number? (c.ahead.takeWhile isNumberPart) <;> simp

/-- A string literal fails if the quote that opens it is not met again. -/
theorem fails_parseString {quote : Char} :
    (parseString quote c).Fails e f ↔
      body? quote c.advance.ahead = none ∧
        (between (.unterminatedString quote) c c.toEnd).within .string = e ∧ c.toEnd = f := by
  unfold parseString
  dsimp only
  split
  · rename_i hbody
    simp [hbody]
  · rename_i hbody
    simp [hbody]

/-- The end of the text fails if anything is left. -/
theorem fails_parseEnd :
    (parseEnd c).Fails e f ↔ c.ahead ≠ [] ∧ between .trailingInput c c.toEnd = e ∧ c = f := by
  unfold parseEnd
  by_cases h : c.ahead = []
  · simp [Cursor.isAtEnd, h]
  · simp [Cursor.isAtEnd, h]

end Destructure
