import Destructure.Parsing.Pattern

/-!
# Destructure.Proofs.Parsing.Finds

`Step.Finds s a e`: the step succeeds, finds `a` and stops at `e`.

Proof shape: every way of putting steps together has one equivalence here that says when the whole
finds something in terms of its parts, and no later proof opens a step. All but the one about lists
are simp lemmas. `finds_parseSlots` tells of one round of a list: the end of the list, or a slot and
then either the terminator or a separator and the rounds after it.
-/

namespace Destructure

variable {α β : Type} {c d : Cursor}

namespace Cursor

theorem current_eq_some {x : Char} : c.current = some x ↔ ∃ rest, c.ahead = x :: rest :=
  List.head?_eq_some_iff

/-- Places that are reached from one place and have the same text ahead are the same. -/
theorem eq_of_ahead_eq {e : Cursor} (hd : c ≤ d) (he : c ≤ e) (h : d.ahead = e.ahead) :
    d = e := by
  obtain ⟨w, ha, hb⟩ := hd
  obtain ⟨v, ha', hb'⟩ := he
  have hw : w = v := List.append_cancel_right (ha.symm.trans (h ▸ ha'))
  exact Cursor.ext (by rw [hb, hb', hw]) h

end Cursor

namespace Step

/-- The step finds `a` and stops at `e`. -/
def Finds (s : Step α c) (a : α) (e : Cursor) : Prop := s.result = .ok a ∧ s.next = e

/-- A step finds at most one thing, and stops at one place. -/
theorem Finds.unique {s : Step α c} {a b : α} {e f : Cursor} (h : s.Finds a e)
    (h' : s.Finds b f) : a = b ∧ e = f :=
  ⟨Except.ok.inj (h.1.symm.trans h'.1), h.2.symm.trans h'.2⟩

theorem Finds.le {s : Step α c} {a : α} {e : Cursor} (h : s.Finds a e) : c ≤ e := h.2 ▸ s.le_next

@[simp] theorem finds_done {a b : α} {e : Cursor} (h : c ≤ d) :
    (done a d h).Finds b e ↔ a = b ∧ d = e := by
  simp [Finds, done]

@[simp] theorem not_finds_fail {err : ParseError} {a : α} {e : Cursor} (h : c ≤ d) :
    ¬ (fail err d h : Step α c).Finds a e := by
  simp [Finds, fail]

@[simp] theorem finds_since {s : Step α d} {a : α} {e : Cursor} (h : c ≤ d) :
    (since h s).Finds a e ↔ s.Finds a e := Iff.rfl

@[simp] theorem finds_after {s : Step α c} {a : α} {e : Cursor} (event : ParseEvent) :
    (s.after event).Finds a e ↔ s.Finds a e := Iff.rfl

@[simp] theorem finds_called {s : Step α c} {a : α} {e : Cursor} (offset : Nat) :
    (s.called offset).Finds a e ↔ s.Finds a e := Iff.rfl

/-- Naming a production changes errors only. -/
@[simp] theorem finds_within {s : Step α c} {a : α} {e : Cursor} (p : Production) :
    (s.within p).Finds a e ↔ s.Finds a e := by
  unfold Finds within
  cases s.result with
  | error err =>
    constructor
    · intro h
      cases h.1
    · intro h
      cases h.1
  | ok b => exact Iff.rfl

/-- A changed step finds the change of what the step finds. -/
@[simp] theorem finds_map {s : Step α c} {f : α → β} {b : β} {e : Cursor} :
    (s.map f).Finds b e ↔ ∃ a, s.Finds a e ∧ f a = b := by
  unfold Finds map
  cases s.result with
  | error err => simp [Except.map]
  | ok a =>
    constructor
    · intro hfound
      obtain ⟨h, he⟩ := hfound
      exact ⟨a, ⟨rfl, he⟩, Except.ok.inj h⟩
    · intro h
      obtain ⟨_, ⟨⟨⟩, he⟩, rfl⟩ := h
      exact ⟨rfl, he⟩

/-- A sequence finds what its second step finds after the first one has found something. -/
@[simp] theorem finds_bind {s : Step α c} {k : α → (d : Cursor) → c ≤ d → Step β d} {b : β}
    {f : Cursor} :
    (s.bind k).Finds b f ↔ ∃ a e, ∃ h : c ≤ e, s.Finds a e ∧ (k a e h).Finds b f := by
  unfold Finds bind
  constructor
  · intro h
    split at h
    · simp at h
    · rename_i a ha
      exact ⟨a, s.next, s.le_next, ⟨ha, rfl⟩, h⟩
  · intro hfound
    obtain ⟨a, e, h, ⟨ha, rfl⟩, hk⟩ := hfound
    rw [ha]
    exact hk

/-- Only what the first step finds matters to the second. -/
theorem bind_congr {s : Step α c} {k k' : α → (d : Cursor) → c ≤ d → Step β d}
    (h : ∀ a d h, s.Finds a d → k a d h = k' a d h) : s.bind k = s.bind k' := by
  unfold bind
  split
  · rfl
  · rename_i a ha
    simp only [h a s.next s.le_next ⟨ha, rfl⟩]

end Step

variable {s : Series} {span : Span}

/-- A slot is empty at a separator, if the list allows that, and an element otherwise. -/
theorem finds_parseSlot {x : Char} {hd : c ≤ d} {element : (d : Cursor) → c ≤ d → Step α d}
    {slot : Option α} {e : Cursor} :
    (parseSlot s x d hd element).Finds slot e ↔
      (x = s.separator ∧ s.allowsBlanks = true ∧ slot = none ∧ d = e) ∨
        (x ≠ s.separator ∧ ∃ a, (element d hd).Finds a e ∧ some a = slot) := by
  unfold parseSlot
  by_cases hx : x = s.separator
  · cases hb : s.allowsBlanks <;> simp [hx, eq_comm]
  · simp [hx]

/-- One round of a list that is read: the terminator, or a slot and then either the terminator or a
separator and the rounds after it. -/
theorem finds_parseSlots {hd : c ≤ d} {element : (d : Cursor) → c ≤ d → Step α d}
    {slots : List (Option α)} {f : Cursor} :
    (parseSlots s span element d hd).Finds slots f ↔
      (d.skipSpace.current = some s.terminator ∧ slots = [] ∧ d.skipSpace.advance = f) ∨
        ∃ x slot e, ∃ h : c ≤ d.skipSpace, d.skipSpace.current = some x ∧ x ≠ s.terminator ∧
          (parseSlot s x d.skipSpace h element).Finds slot e ∧
            ((e.skipSpace.current = some s.terminator ∧ slots = [slot] ∧
                e.skipSpace.advance = f) ∨
              ∃ more, ∃ h' : c ≤ e.skipSpace.advance,
                e.skipSpace.current = some s.separator ∧ s.separator ≠ s.terminator ∧
                  (parseSlots s span element e.skipSpace.advance h').Finds more f ∧
                    slots = slot :: more) := by
  rw [parseSlots]
  dsimp only
  cases hx : d.skipSpace.current with
  | none => simp
  | some x =>
    dsimp only
    by_cases hxt : x = s.terminator
    · simp [hxt, eq_comm]
    · simp only [hxt, if_false, Step.finds_bind, Step.finds_since, Option.some.injEq, false_and,
        false_or]
      constructor
      · intro h
        obtain ⟨slot, e, he, hslot, hk⟩ := h
        have hce := c.le_trans hd he
        refine ⟨x, slot, e, c.le_trans hd d.le_skipSpace, rfl, hxt, hslot, ?_⟩
        split at hk
        · exact absurd hk (Step.not_finds_fail _)
        · rename_i y ys hy
          have hcur : e.skipSpace.current = some y := Cursor.current_eq_some.2 ⟨ys, hy⟩
          split at hk
          · rename_i hyt
            obtain ⟨rfl, rfl⟩ := (Step.finds_done _).1 hk
            exact Or.inl ⟨hyt ▸ hcur, rfl, rfl⟩
          · rename_i hyt
            split at hk
            · rename_i hys
              obtain ⟨more, hmore, rfl⟩ := Step.finds_map.1 hk
              exact Or.inr ⟨more, _, hys ▸ hcur, fun h => hyt (hys.trans h), hmore, rfl⟩
            · exact absurd hk (Step.not_finds_fail _)
      · intro h
        obtain ⟨_, slot, e, he, rfl, -, hslot, hk⟩ := h
        have hde : d ≤ e := d.le_trans d.le_skipSpace hslot.le
        refine ⟨slot, e, hde, hslot, ?_⟩
        rcases hk with ⟨hy, rfl, rfl⟩ | ⟨more, h', hy, hne, hmore, rfl⟩
        · obtain ⟨ys, hy⟩ := Cursor.current_eq_some.1 hy
          split
          · simp_all
          · rename_i z zs hz
            obtain ⟨rfl, -⟩ := List.cons.inj (hy.symm.trans hz)
            simp
        · obtain ⟨ys, hy⟩ := Cursor.current_eq_some.1 hy
          split
          · simp_all
          · rename_i z zs hz
            obtain ⟨rfl, -⟩ := List.cons.inj (hy.symm.trans hz)
            simp only [hne, if_false, if_true, Step.finds_since, Step.finds_map]
            exact ⟨more, hmore, rfl⟩

theorem finds_parseEnd {u : Unit} {e : Cursor} :
    (parseEnd c).Finds u e ↔ c.ahead = [] ∧ c = e := by
  unfold parseEnd
  by_cases h : c.ahead = []
  · simp [Cursor.isAtEnd, h]
  · simp [Cursor.isAtEnd, h]

end Destructure
