import Destructure.Proofs.Parsing.Delimiters
import Destructure.Proofs.Parsing.Fails

/-!
# Destructure.Proofs.Parsing.Rounds

The loop of a list, round by round, for lists of any form and elements of any kind.

Design points:

* A `Round` is what the loop came by up to the end of one slot. `Round.At` says that it is the round
  at a place: an empty slot at a separator, or a slot that the element parser filled.
* `Rounds` are those that ended with a separator, which the loop passed. So there are as many
  separators as rounds, whatever the elements took themselves.
* `Ends` has one case for each way out of the loop, with what is left of the result and of the
  events.

Proof shape: `parseSlots_round` opens the loop once, for one round. What a list comes to
(`parseSlots_run`) is an induction on the text ahead, and no later proof opens the loop.
-/

namespace Destructure

variable {α : Type} {c d : Cursor}

/-- What the loop of a list came by, up to the end of one slot. -/
structure Round (α : Type) where
  /-- The first character of the slot, or the separator that leaves it empty. -/
  start : Cursor
  item : Option α
  /-- Where the slot ends. -/
  stop : Cursor
  events : List ParseEvent

/-- Where the loop looks for what follows the slot. -/
def Round.closing (r : Round α) : Cursor := r.stop.skipSpace

section

variable (s : Series) (span : Span) (element : (d : Cursor) → c ≤ d → Step α d)

/-- The loop comes by the round when it is at `d`. -/
inductive Round.At (d : Cursor) : Round α → Prop where
  /-- A separator with no element before it. -/
  | blank : d.skipSpace.current = some s.separator → s.separator ≠ s.terminator →
      s.allowsBlanks = true →
      At d ⟨d.skipSpace, none, d.skipSpace, [.blank d.skipSpace.offset]⟩
  /-- An element, which may be read from any other character than the terminator. -/
  | filled {x : Char} {a : α} {e : Cursor} (h : c ≤ d.skipSpace) :
      d.skipSpace.current = some x → x ≠ s.terminator → x ≠ s.separator →
      (element d.skipSpace h).Finds a e →
      At d ⟨d.skipSpace, some a, e,
        .element d.skipSpace.offset s.terminator :: (element d.skipSpace h).events⟩

/-- The loop goes from one place to another by rounds, each with the separator after it. -/
inductive Rounds : Cursor → List (Round α) → Cursor → Prop where
  | nil (d : Cursor) : Rounds d [] d
  | cons {d g : Cursor} {r : Round α} {rs : List (Round α)} : r.At s element d →
      r.closing.current = some s.separator → s.separator ≠ s.terminator →
      Rounds r.closing.advance rs g → Rounds d (r :: rs) g

/-- The loop ends from `g` on without another separator: with a result, at a place and after some
events. -/
inductive Ends (g : Cursor) :
    Except ParseError (List (Option α)) → Cursor → List ParseEvent → Prop where
  /-- The terminator where a slot may start. -/
  | closed : g.skipSpace.current = some s.terminator → Ends g (.ok []) g.skipSpace.advance []
  /-- The terminator after an element. -/
  | closedAfter {r : Round α} : r.At s element g → r.item.isSome = true →
      r.closing.current = some s.terminator → Ends g (.ok [r.item]) r.closing.advance r.events
  | unclosed : g.skipSpace.ahead = [] → Ends g (.error (s.unclosed span g.skipSpace)) g.skipSpace []
  | unclosedAfter {r : Round α} : r.At s element g → r.closing.ahead = [] →
      Ends g (.error (s.unclosed span r.closing)) r.closing r.events
  /-- A separator with no element before it, in a list without empty slots. -/
  | emptySlot : g.skipSpace.current = some s.separator → s.separator ≠ s.terminator →
      s.allowsBlanks = false → Ends g (.error (s.emptySlot g.skipSpace)) g.skipSpace []
  | failed {x : Char} {e : ParseError} {f : Cursor} (h : c ≤ g.skipSpace) :
      g.skipSpace.current = some x → x ≠ s.terminator → x ≠ s.separator →
      (element g.skipSpace h).Fails e f →
      Ends g (.error e) f
        (.element g.skipSpace.offset s.terminator :: (element g.skipSpace h).events)
  /-- Neither a separator nor the terminator after a slot. -/
  | unseparated {r : Round α} {y : Char} : r.At s element g → r.closing.current = some y →
      y ≠ s.terminator → y ≠ s.separator →
      Ends g (.error (s.unseparated y r.closing)) r.closing r.events

end

variable {s : Series} {span : Span} {element : (d : Cursor) → c ≤ d → Step α d}

namespace Step

variable {β : Type}

/-- What a sequence did: its first step failed, or found something for the second one. -/
theorem bind_cases {t : Step α c} {k : α → (d : Cursor) → c ≤ d → Step β d} {u : Step β c}
    (h : t.bind k = u) :
    (∃ e, t.result = .error e ∧ u.result = .error e ∧ u.next = t.next ∧ u.events = t.events) ∨
      ∃ a v, t.result = .ok a ∧ k a t.next t.le_next = v ∧ u.result = v.result ∧
        u.next = v.next ∧ u.events = t.events ++ v.events := by
  unfold bind at h
  split at h
  · rename_i e he
    exact .inl ⟨e, he, h ▸ rfl, h ▸ rfl, h ▸ rfl⟩
  · rename_i a ha
    exact .inr ⟨a, _, ha, rfl, h ▸ rfl, h ▸ rfl, h ▸ rfl⟩

end Step

/-! ### One round -/

theorem Round.At.le_closing {r : Round α} (h : r.At s element d) : d ≤ r.closing := by
  cases h with
  | blank => exact Cursor.le_skipSpace_of_le d.le_skipSpace
  | filled h _ _ _ hfinds =>
    exact Cursor.le_skipSpace_of_le (d.le_trans d.le_skipSpace hfinds.le)

/-- After an empty slot the loop is still at the separator. -/
theorem Round.At.closing_of_blank {r : Round α} (h : r.At s element d) (hitem : r.item = none) :
    s.allowsBlanks = true ∧ r.closing.current = some s.separator ∧
      s.separator ≠ s.terminator := by
  cases h with
  | blank hx hne hblanks =>
    refine ⟨hblanks, ?_, hne⟩
    rw [Round.closing, Cursor.skipSpace_skipSpace]
    exact hx
  | filled => cases hitem

section

variable (span : Span) (element : (d : Cursor) → c ≤ d → Step α d) {x : Char}

/-- A slot that was read makes a round. -/
theorem Round.at_of_parseSlot (slot : Option α) (h : c ≤ d.skipSpace)
    (hx : d.skipSpace.current = some x) (hxt : x ≠ s.terminator)
    (hslot : (parseSlot s x d.skipSpace h element).result = .ok slot) :
    Round.At s element d ⟨d.skipSpace, slot, (parseSlot s x d.skipSpace h element).next,
      (parseSlot s x d.skipSpace h element).events⟩ := by
  unfold parseSlot at hslot ⊢
  by_cases hxs : x = s.separator
  · subst hxs
    cases hblanks : s.allowsBlanks with
    | true =>
      simp only [hblanks, if_true] at hslot ⊢
      cases hslot
      exact .blank hx hxt hblanks
    | false =>
      simp only [hblanks, if_true, Bool.false_eq_true, if_false] at hslot
      cases hslot
  · simp only [hxs, if_false] at hslot ⊢
    obtain ⟨a, hfinds, rfl⟩ := Step.finds_map.1 ⟨hslot, rfl⟩
    exact .filled h hx hxt hxs hfinds

/-- A slot that cannot be read ends the loop. -/
theorem ends_of_parseSlot (e : ParseError) (h : c ≤ d.skipSpace)
    (hx : d.skipSpace.current = some x) (hxt : x ≠ s.terminator)
    (hslot : (parseSlot s x d.skipSpace h element).result = .error e) :
    Ends s span element d (.error e) (parseSlot s x d.skipSpace h element).next
      (parseSlot s x d.skipSpace h element).events := by
  unfold parseSlot at hslot ⊢
  by_cases hxs : x = s.separator
  · subst hxs
    cases hblanks : s.allowsBlanks with
    | true =>
      simp only [hblanks, if_true] at hslot
      cases hslot
    | false =>
      simp only [hblanks, if_true, Bool.false_eq_true, if_false] at hslot ⊢
      cases hslot
      exact .emptySlot hx hxt hblanks
  · simp only [hxs, if_false] at hslot ⊢
    exact .failed h hx hxt hxs (Step.fails_map.1 ⟨hslot, rfl⟩)

end

/-- One round of the loop: it ends, or it passes a slot and a separator and goes on from there. -/
theorem parseSlots_round (hd : c ≤ d) {t : Step (List (Option α)) d}
    (ht : parseSlots s span element d hd = t) :
    Ends s span element d t.result t.next t.events ∨
      ∃ (r : Round α) (h : c ≤ r.closing.advance) (u : Step (List (Option α)) r.closing.advance),
        r.At s element d ∧ r.closing.current = some s.separator ∧ s.separator ≠ s.terminator ∧
        parseSlots s span element r.closing.advance h = u ∧
        t.result = u.result.map (r.item :: ·) ∧ t.next = u.next ∧
        t.events = r.events ++ u.events := by
  rw [parseSlots] at ht
  dsimp only at ht
  split at ht
  · rename_i hend
    subst ht
    exact .inl (.unclosed (List.head?_eq_none_iff.1 hend))
  · rename_i x hx
    split at ht
    · rename_i hxt
      subst ht
      exact .inl (.closed (hxt ▸ hx))
    · rename_i hxt
      have hround {slot} := Round.at_of_parseSlot element slot (c.le_trans hd d.le_skipSpace) hx hxt
      have hends {e} := ends_of_parseSlot span element e (c.le_trans hd d.le_skipSpace) hx hxt
      generalize parseSlot s x d.skipSpace (c.le_trans hd d.le_skipSpace) element = u
        at ht hround hends
      rcases Step.bind_cases ht with ⟨e, he, hresult, hnext, hevents⟩ |
        ⟨slot, v, hslot, hv, hresult, hnext, hevents⟩
      · rw [hresult, hnext, hevents]
        exact .inl (hends he)
      · replace hround := hround hslot
        rw [hresult, hnext, hevents]
        split at hv
        · rename_i hend
          subst hv
          refine .inl ?_
          rw [Step.fail, List.append_nil]
          exact .unclosedAfter (r := ⟨_, slot, u.next, u.events⟩) hround hend
        · rename_i y ys hy
          have hcur := Cursor.current_eq_some.2 ⟨ys, hy⟩
          split at hv
          · rename_i hyt
            subst hyt hv
            refine .inl ?_
            rw [Step.done, List.append_nil]
            refine .closedAfter hround (Option.isSome_iff_ne_none.2 fun hnone => ?_) hcur
            obtain ⟨-, hsep, hne⟩ := hround.closing_of_blank hnone
            exact hne (Option.some.inj (hsep.symm.trans hcur))
          · rename_i hyt
            split at hv
            · rename_i hys
              subst hys hv
              exact .inr ⟨_, _, _, hround, hcur, hyt, rfl, rfl, rfl, rfl⟩
            · rename_i hys
              subst hv
              refine .inl ?_
              rw [Step.fail, List.append_nil]
              exact .unseparated (r := ⟨_, slot, u.next, u.events⟩) hround hcur hyt hys

/-! ### The whole loop -/

/-- A list passes some rounds, and then it ends. -/
theorem parseSlots_run (hd : c ≤ d) {t : Step (List (Option α)) d}
    (ht : parseSlots s span element d hd = t) :
    ∃ rounds g result events, Rounds s element d rounds g ∧
      Ends s span element g result t.next events ∧
      t.result = result.map (rounds.map Round.item ++ ·) ∧
      t.events = rounds.flatMap Round.events ++ events := by
  induction hn : d.ahead.length using Nat.strong_induction_on generalizing d with
  | _ n ih =>
  subst hn
  rcases parseSlots_round hd ht with
    hends | ⟨r, h, u, hround, hcur, hne, hu, hresult, hnext, hevents⟩
  · refine ⟨[], d, t.result, t.events, .nil d, hends, ?_, rfl⟩
    cases t.result <;> rfl
  · have hlt : r.closing.advance.ahead.length < d.ahead.length :=
      Nat.lt_of_lt_of_le (Cursor.length_ahead_lt (Cursor.lt_advance hcur))
        (Cursor.length_ahead_le hround.le_closing)
    obtain ⟨rounds, g, result, events, hrounds, hends, hresult', hevents'⟩ := ih _ hlt h hu rfl
    refine ⟨r :: rounds, g, result, events, .cons hround hcur hne hrounds, ?_, ?_, ?_⟩
    · rw [hnext]
      exact hends
    · rw [hresult, hresult']
      cases result <;> rfl
    · rw [hevents, hevents', List.flatMap_cons, List.append_assoc]

/-- Empty slots are only passed where the list allows them. -/
theorem Rounds.none_notMem_items {g : Cursor} {rounds : List (Round α)}
    (h : Rounds s element d rounds g) (hblanks : s.allowsBlanks = false) :
    none ∉ rounds.map Round.item := by
  induction h with
  | nil => exact List.not_mem_nil
  | cons hround _ _ _ ih =>
    rw [List.map_cons, List.mem_cons, not_or]
    refine ⟨fun hitem => ?_, ih⟩
    rw [(hround.closing_of_blank hitem.symm).1] at hblanks
    cases hblanks

/-- **The slots of a list of any form.** A list that is read ends right after its terminator. Its
items are those of the rounds that the loop passed, each with one separator, and of one more round
if the terminator follows an element. A list that fails has an element that fails, or an error of
its own at the end of the text, at a separator, or at a character that is neither a separator nor
the terminator. -/
theorem parseSeries_slots (s : Series) (span : Span) (c : Cursor)
    (element : (d : Cursor) → c ≤ d → Step α d) :
    (∀ items f, (parseSeries s span c element).Finds items f →
      (s.allowsBlanks = false → none ∉ items) ∧
      ∃ rounds g, Rounds s element c rounds g ∧
        ((g.skipSpace.current = some s.terminator ∧ f = g.skipSpace.advance ∧
            items = rounds.map Round.item ∧
            items.length = rounds.length) ∨
          ∃ r : Round α, r.At s element g ∧ r.item ≠ none ∧ r.closing.current = some s.terminator ∧
            f = r.closing.advance ∧ items = rounds.map Round.item ++ [r.item] ∧
            items.length = rounds.length + 1)) ∧
    (∀ e f, (parseSeries s span c element).Fails e f →
      (∃ rounds g, ∃ h : c ≤ g.skipSpace, Rounds s element c rounds g ∧
        (element g.skipSpace h).Fails e f) ∨
      (f.ahead = [] ∧ e = s.unclosed span f) ∨
      (f.current = some s.separator ∧ s.allowsBlanks = false ∧ e = s.emptySlot f) ∨
      ∃ y, f.current = some y ∧ y ≠ s.separator ∧ y ≠ s.terminator ∧
        e = s.unseparated y f) := by
  generalize ht : parseSeries s span c element = t
  obtain ⟨rounds, g, result, events, hrounds, hends, hresult, -⟩ := parseSlots_run _ ht
  generalize hnext : t.next = f at hends
  constructor
  · rintro items f ⟨hitems, rfl⟩
    have hitems := hitems.symm.trans hresult
    cases hends with
    | closed hcur =>
      obtain rfl : items = rounds.map Round.item :=
        (Except.ok.inj hitems).trans (List.append_nil _)
      exact ⟨hrounds.none_notMem_items, rounds, g, hrounds, .inl ⟨hcur, hnext, rfl, by simp⟩⟩
    | @closedAfter r hround hsome hcur =>
      obtain rfl : items = rounds.map Round.item ++ [r.item] := Except.ok.inj hitems
      refine ⟨fun hblanks hmem => ?_, rounds, g, hrounds,
        .inr ⟨r, hround, Option.isSome_iff_ne_none.1 hsome, hcur, hnext, rfl, by simp⟩⟩
      rcases List.mem_append.1 hmem with hmem | hmem
      · exact hrounds.none_notMem_items hblanks hmem
      · rw [← List.mem_singleton.1 hmem] at hsome
        cases hsome
    | _ => cases hitems
  · rintro e f ⟨herror, rfl⟩
    have herror := herror.symm.trans hresult
    rw [hnext]
    cases hends with
    | closed | closedAfter => cases herror
    | unclosed hend | unclosedAfter _ hend => exact .inr (.inl ⟨hend, Except.error.inj herror⟩)
    | emptySlot hcur _ hblanks =>
      exact .inr (.inr (.inl ⟨hcur, hblanks, Except.error.inj herror⟩))
    | failed h _ _ _ hfails =>
      exact .inl ⟨rounds, g, h, hrounds, Except.error.inj herror ▸ hfails⟩
    | @unseparated r y _ hcur hyt hys =>
      exact .inr (.inr (.inr ⟨y, hcur, hys, hyt, Except.error.inj herror⟩))

end Destructure
