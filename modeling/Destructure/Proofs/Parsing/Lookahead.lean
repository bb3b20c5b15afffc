import Destructure.Proofs.Parsing.Completeness
import Destructure.Proofs.Parsing.Fails

/-!
# Destructure.Proofs.Parsing.Lookahead

What the pattern parser does up to a place is decided by the text up to there and the one character
after it: `agrees_parsePattern`.

Design points:

* Two runs are compared. `Twin k r r' c c'` relates their places: ahead of `c` and `c'` is the same
  text, and then `r` in the one run and `r'` in the other, of which only the first characters are
  known to be the same. What lies behind does not matter, but `c'` is `k` bytes further on.
* `Step.Agrees` compares what the runs do, as long as the first one stops before `r` or at it. Then
  they stop at related places and have the same result, up to where an error is said to be.

Proof shape: one lemma for each way of putting steps together and for each movement of a cursor, so
that the lemma for a production follows its definition in both runs at once. The only inductions are
those on the text ahead, in a list and for patterns.
-/

namespace Destructure

open Text

variable {α β : Type} {k : Nat} {r r' : List Char} {c c' d d' : Cursor}

/-! ### Related places -/

/-- The same text lies ahead of both places, before `r` and before `r'`. -/
structure Twin (k : Nat) (r r' : List Char) (c c' : Cursor) : Prop where
  offset : c'.offset = c.offset + k
  ahead : ∃ v, c.ahead = v ++ r ∧ c'.ahead = v ++ r'

namespace Twin

/-- Past the same characters, if that is not past the start of `r`. -/
theorem past {w rest : List Char} (h : Twin k r r' c c') (hw : c.ahead = w ++ rest)
    (hlen : r.length ≤ rest.length) :
    ∃ v, rest = v ++ r ∧ c'.ahead = w ++ (v ++ r') := by
  obtain ⟨u, hu, hu'⟩ := h.ahead
  have hprefix : w <+: u := by
    refine List.prefix_of_prefix_length_le ⟨rest, hw.symm⟩ ⟨r, hu.symm⟩ ?_
    have := congrArg List.length (hw.symm.trans hu)
    simp only [List.length_append] at this
    omega
  obtain ⟨v, rfl⟩ := hprefix
  rw [hw, List.append_assoc] at hu
  exact ⟨v, List.append_cancel_left hu, by rw [hu', List.append_assoc]⟩

theorem of_le {w : List Char} (h : Twin k r r' c c') (hd : c ≤ d) (hd' : c' ≤ d')
    (hw : c.ahead = w ++ d.ahead) (hw' : c'.ahead = w ++ d'.ahead)
    (hlen : r.length ≤ d.ahead.length) : Twin k r r' d d' := by
  obtain ⟨v, hv, hv'⟩ := h.past hw hlen
  refine ⟨?_, v, hv, List.append_cancel_left (hw'.symm.trans hv')⟩
  have hoffset {a b : Cursor} (hab : a ≤ b) (ha : a.ahead = w ++ b.ahead) :
      b.offset = a.offset + byteLength w := by
    obtain ⟨x, hx, hb⟩ := hab
    obtain rfl : x = w := List.append_cancel_right (hx.symm.trans ha)
    simp [a.offset_eq, b.offset_eq, hb, Nat.add_comm]
  rw [hoffset hd' hw', hoffset hd hw, h.offset]
  omega

section

variable (hr : r.head? = r'.head?)

include hr

theorem current (h : Twin k r r' c c') : c'.current = c.current := by
  obtain ⟨v, hv, hv'⟩ := h.ahead
  cases v with
  | nil => simp [Cursor.current, hv, hv', hr]
  | cons x v => simp [Cursor.current, hv, hv']

theorem advance (h : Twin k r r' c c') (hlen : r.length ≤ c.advance.ahead.length) :
    Twin k r r' c.advance c'.advance := by
  have hcur := h.current hr
  cases hx : c.current with
  | none =>
    have hstay {a : Cursor} (ha : a.current = none) : a.ahead = [] ++ a.advance.ahead := by
      rw [Cursor.ahead_advance, List.head?_eq_none_iff.1 ha]
      rfl
    exact h.of_le c.le_advance c'.le_advance (hstay hx) (hstay (hcur.trans hx)) hlen
  | some x =>
    exact h.of_le (w := [x]) c.le_advance c'.le_advance (Cursor.ahead_of_current hx)
      (Cursor.ahead_of_current (hcur.trans hx)) hlen

/-- After the character ahead the places are as far apart, even if it is the last common one. -/
theorem offset_advance (h : Twin k r r' c c') : c'.advance.offset = c.advance.offset + k := by
  have hcur := h.current hr
  have hoffset {a : Cursor} : a.advance.offset = a.offset + (a.current.elim 0 Char.utf8Size) := by
    unfold Cursor.advance
    split
    · simp_all [Cursor.current]
    · simp_all [Cursor.current]
  rw [hoffset, hoffset, hcur, h.offset]
  omega

theorem skipWhile (p : Char → Bool) (h : Twin k r r' c c')
    (hlen : r.length ≤ (c.skipWhile p).ahead.length) :
    c'.ahead.takeWhile p = c.ahead.takeWhile p ∧
      Twin k r r' (c.skipWhile p) (c'.skipWhile p) := by
  obtain ⟨v, hv, hv'⟩ := h.past List.takeWhile_append_dropWhile.symm hlen
  have hfirst : (v ++ r').head? = (c.ahead.dropWhile p).head? := by
    rw [hv]
    cases v with
    | nil => exact hr.symm
    | cons x v => rfl
  have hstop : ∀ x ∈ (v ++ r').head?, ¬ p x = true := by
    intro x hx
    rw [hfirst] at hx
    have := List.head?_dropWhile_not p c.ahead
    rw [hx] at this
    simp [this]
  have htake : c'.ahead.takeWhile p = c.ahead.takeWhile p := by
    rw [hv', List.takeWhile_append_of_pos (List.all_eq_true.1 List.all_takeWhile)]
    cases hrest : v ++ r' with
    | nil => simp
    | cons x t =>
      rw [hrest] at hstop
      rw [List.takeWhile_cons_of_neg (hstop x rfl), List.append_nil]
  refine ⟨htake, h.of_le (c.le_skipWhile p) (c'.le_skipWhile p)
    List.takeWhile_append_dropWhile.symm ?_ hlen⟩
  rw [← htake]
  exact List.takeWhile_append_dropWhile.symm

theorem skipSpace (h : Twin k r r' c c') (hlen : r.length ≤ c.skipSpace.ahead.length) :
    Twin k r r' c.skipSpace c'.skipSpace :=
  (h.skipWhile hr isSpace hlen).2

end

end Twin

/-! ### Related errors -/

/-- The second span is the first one, `k` bytes further on. -/
def Span.Shifted (k : Nat) (s s' : Span) : Prop :=
  ∃ a b, s = .ofOffsets a b ∧ s' = .ofOffsets (a + k) (b + k)

namespace ParseError

/-- The same cause, if the place that it mentions is counted from elsewhere. -/
inductive Cause.Shifted (k : Nat) : Cause → Cause → Prop where
  | unclosed {opening closing : Char} {s s' : Span} : s.Shifted k s' →
      Shifted k (.unclosed opening closing s) (.unclosed opening closing s')
  | same {cause : Cause} : (∀ opening closing s, cause ≠ .unclosed opening closing s) →
      Shifted k cause cause

/-- The same error, `k` bytes further on. What was left to read is not compared: it goes on to the
end of the one text or the other, past what they have in common. -/
structure Shifted (k : Nat) (e e' : ParseError) : Prop where
  cause : e.cause.Shifted k e'.cause
  code : e'.code = e.code
  message : e'.message = e.message
  span : e.span.Shifted k e'.span
  production : e'.production = e.production
  help : e'.help = e.help

/-- Errors built from related places are related. -/
theorem shifted_between {cause cause' : Cause} (hcause : cause.Shifted k cause')
    (hc : Twin k r r' c c') (hd : d'.offset = d.offset + k) :
    (between cause c d).Shifted k (between cause' c' d') where
  cause := hcause
  code := by cases hcause <;> rfl
  message := by cases hcause <;> rfl
  span := ⟨c.offset, d.offset, rfl, by rw [← hc.offset, ← hd]; rfl⟩
  production := rfl
  help := by cases hcause <;> rfl

theorem shifted_here (hr : r.head? = r'.head?) {cause cause' : Cause}
    (hcause : cause.Shifted k cause') (hc : Twin k r r' c c') :
    (here cause c).Shifted k (here cause' c') :=
  shifted_between hcause hc (hc.offset_advance hr)

theorem Shifted.within {e e' : ParseError} (h : e.Shifted k e') (p : Production) :
    (e.within p).Shifted k (e'.within p) :=
  ⟨h.cause, h.code, h.message, h.span, congrArg (·.or (some p)) h.production, h.help⟩

theorem shifted_unexpected (hr : r.head? = r'.head?) (expected : String)
    (hc : Twin k r r' c c') : (unexpected expected c).Shifted k (unexpected expected c') := by
  unfold unexpected
  rw [hc.current hr]
  cases c.current with
  | none => exact shifted_here hr (.same (by simp)) hc
  | some x => exact shifted_here hr (.same (by simp)) hc

end ParseError

open ParseError (shifted_between shifted_here shifted_unexpected)

/-! ### Related steps -/

/-- The same result, up to where an error is said to be. -/
inductive SameResult (k : Nat) : Except ParseError α → Except ParseError α → Prop where
  | ok (a : α) : SameResult k (.ok a) (.ok a)
  | error {e e' : ParseError} : e.Shifted k e' → SameResult k (.error e) (.error e')

theorem SameResult.within {x x' : Except ParseError α} (h : SameResult k x x')
    (p : Production) : SameResult k (x.mapError (·.within p)) (x'.mapError (·.within p)) := by
  cases h with
  | ok a => exact .ok a
  | error he => exact .error (he.within p)

theorem SameResult.map {x x' : Except ParseError α} (h : SameResult k x x') (f : α → β) :
    SameResult k (x.map f) (x'.map f) := by
  cases h with
  | ok a => exact .ok (f a)
  | error he => exact .error he

namespace Step

/-- If the first step does not stop inside `r`, both do the same. -/
def Agrees (k : Nat) (r r' : List Char) (s : Step α c) (s' : Step α c') : Prop :=
  r.length ≤ s.next.ahead.length → Twin k r r' s.next s'.next ∧ SameResult k s.result s'.result

/-- What the first step finds before `r`, the second one finds as well. -/
theorem Agrees.finds {s : Step α c} {s' : Step α c'} {a : α} (h : s.Agrees k r r' s')
    (hfinds : s.Finds a d) (hlen : r.length ≤ d.ahead.length) :
    ∃ d', s'.Finds a d' ∧ Twin k r r' d d' := by
  obtain ⟨hs, rfl⟩ := hfinds
  obtain ⟨htwin, hresult⟩ := h hlen
  rw [hs] at hresult
  generalize hs' : s'.result = result at hresult
  cases hresult with
  | ok => exact ⟨s'.next, ⟨hs', rfl⟩, htwin⟩

/-- Where the first step fails before `r`, the second one fails with the same error. -/
theorem Agrees.fails {s : Step α c} {s' : Step α c'} {e : ParseError} (h : s.Agrees k r r' s')
    (hfails : s.Fails e d) (hlen : r.length ≤ d.ahead.length) :
    ∃ e' d', s'.Fails e' d' ∧ e.Shifted k e' := by
  obtain ⟨hs, rfl⟩ := hfails
  obtain ⟨-, hresult⟩ := h hlen
  rw [hs] at hresult
  generalize hs' : s'.result = result at hresult
  cases hresult with
  | error he => exact ⟨_, s'.next, ⟨hs', rfl⟩, he⟩

theorem agrees_done {a a' : α} {hd : c ≤ d} {hd' : c' ≤ d'}
    (h : r.length ≤ d.ahead.length → Twin k r r' d d' ∧ a' = a) :
    (done a d hd).Agrees k r r' (done a' d' hd') := by
  intro hlen
  obtain ⟨htwin, rfl⟩ := h hlen
  exact ⟨htwin, .ok a'⟩

theorem agrees_fail {e e' : ParseError} {hd : c ≤ d} {hd' : c' ≤ d'}
    (h : r.length ≤ d.ahead.length → Twin k r r' d d' ∧ e.Shifted k e') :
    (fail e d hd : Step α c).Agrees k r r' (fail e' d' hd' : Step α c') := by
  intro hlen
  obtain ⟨htwin, herror⟩ := h hlen
  exact ⟨htwin, .error herror⟩

/-- Both steps may be taken from later places, and `r` may be taken to lie after them. -/
theorem agrees_since {s : Step α d} {s' : Step α d'} {hd : c ≤ d} {hd' : c' ≤ d'}
    (h : r.length ≤ d.ahead.length → s.Agrees k r r' s') :
    (since hd s).Agrees k r r' (since hd' s') := fun hlen =>
  h (Nat.le_trans hlen (Cursor.length_ahead_le s.le_next)) hlen

/-- The first step may be taken not to stop before a place that it gets to in any case. -/
theorem agrees_of_le {s : Step α c} {s' : Step α c'} (hd : d ≤ s.next)
    (h : r.length ≤ d.ahead.length → s.Agrees k r r' s') : s.Agrees k r r' s' := fun hlen =>
  h (Nat.le_trans hlen (Cursor.length_ahead_le hd)) hlen

theorem agrees_of_finds {s : Step α c} {s' : Step α c'} {a : α} (h : s.Finds a d)
    (h' : r.length ≤ d.ahead.length → ∃ d', s'.Finds a d' ∧ Twin k r r' d d') :
    s.Agrees k r r' s' := by
  intro hlen
  rw [h.2] at hlen
  obtain ⟨d', hfinds, htwin⟩ := h' hlen
  rw [h.1, h.2, hfinds.1, hfinds.2]
  exact ⟨htwin, .ok a⟩

theorem agrees_of_fails {s : Step α c} {s' : Step α c'} {e : ParseError} (h : s.Fails e d)
    (h' : r.length ≤ d.ahead.length →
      ∃ e' d', s'.Fails e' d' ∧ Twin k r r' d d' ∧ e.Shifted k e') :
    s.Agrees k r r' s' := by
  intro hlen
  rw [h.2] at hlen
  obtain ⟨e', d', hfails, htwin, herror⟩ := h' hlen
  rw [h.1, h.2, hfails.1, hfails.2]
  exact ⟨htwin, .error herror⟩

theorem Agrees.after {s : Step α c} {s' : Step α c'} (h : s.Agrees k r r' s')
    (event event' : ParseEvent) : (s.after event).Agrees k r r' (s'.after event') := h

theorem Agrees.called {s : Step α c} {s' : Step α c'} (h : s.Agrees k r r' s') (m n : Nat) :
    (s.called m).Agrees k r r' (s'.called n) := h

theorem Agrees.within {s : Step α c} {s' : Step α c'} (h : s.Agrees k r r' s') (p : Production) :
    (s.within p).Agrees k r r' (s'.within p) := fun hlen =>
  ⟨(h hlen).1, (h hlen).2.within p⟩

theorem Agrees.map {s : Step α c} {s' : Step α c'} (h : s.Agrees k r r' s') (f : α → β) :
    (s.map f).Agrees k r r' (s'.map f) := fun hlen =>
  ⟨(h hlen).1, (h hlen).2.map f⟩

theorem next_le_next_bind (s : Step α c) (g : α → (d : Cursor) → c ≤ d → Step β d) :
    s.next ≤ (s.bind g).next := by
  unfold bind
  split
  · exact s.next.le_refl
  · exact Step.le_next _

theorem le_next_since_bind (hd : c ≤ d) (s : Step α d)
    (g : α → (f : Cursor) → c ≤ f → Step β f) : d ≤ ((since hd s).bind g).next :=
  Cursor.le_trans s.le_next (next_le_next_bind (since hd s) g)

/-- Sequences agree if their first steps do, and the second ones do after all that these find. -/
theorem Agrees.bind {s : Step α c} {s' : Step α c'} {g : α → (d : Cursor) → c ≤ d → Step β d}
    {g' : α → (d : Cursor) → c' ≤ d → Step β d} (h : s.Agrees k r r' s')
    (hg : ∀ (a : α) (d d' : Cursor) (hd : c ≤ d) (hd' : c' ≤ d'), Twin k r r' d d' →
      (g a d hd).Agrees k r r' (g' a d' hd')) : (s.bind g).Agrees k r r' (s'.bind g') := by
  refine agrees_of_le (s.next_le_next_bind g) fun hmid hlen => ?_
  obtain ⟨htwin, hresult⟩ := h hmid
  unfold Step.bind at hlen ⊢
  generalize hs : s.result = result at hresult hlen ⊢
  generalize hs' : s'.result = result' at hresult ⊢
  cases hresult with
  | ok a => exact hg a _ _ _ _ htwin hlen
  | error he => exact ⟨htwin, .error he⟩

end Step

/-! ### Words, numbers and strings -/

section

variable (hr : r.head? = r'.head?)

include hr

/-- A word is read up to the first character that does not belong to it, and no further. -/
theorem agrees_parseWord (h : Twin k r r' c c') :
    (parseWord c).Agrees k r r' (parseWord c') := by
  unfold parseWord
  rw [h.current hr]
  cases c.current with
  | none => exact Step.agrees_fail fun _ => ⟨h, shifted_unexpected hr _ h⟩
  | some x =>
    dsimp only
    split
    · refine Step.agrees_done fun hlen => ?_
      obtain ⟨htake, hnext⟩ := h.skipWhile hr isWordPart hlen
      exact ⟨hnext, congrArg String.ofList htake⟩
    · exact Step.agrees_fail fun _ => ⟨h, shifted_here hr (.same (by simp)) h⟩

theorem agrees_parseNumber (h : Twin k r r' c c') :
    (parseNumber c).Agrees k r r' (parseNumber c') := by
  cases hnumber : number? (c.ahead.takeWhile isNumberPart) with
  | some value =>
    refine Step.agrees_of_finds (finds_parseNumber.2 ⟨value, hnumber, rfl, rfl⟩) fun hlen => ?_
    obtain ⟨htake, hnext⟩ := h.skipWhile hr isNumberPart hlen
    exact ⟨_, finds_parseNumber.2 ⟨value, htake ▸ hnumber, rfl, rfl⟩, hnext⟩
  | none =>
    refine Step.agrees_of_fails (fails_parseNumber.2 ⟨hnumber, rfl, rfl⟩) fun hlen => ?_
    obtain ⟨htake, hnext⟩ := h.skipWhile hr isNumberPart hlen
    refine ⟨_, _, fails_parseNumber.2 ⟨htake ▸ hnumber, rfl, rfl⟩, hnext, ?_⟩
    rw [htake]
    exact (shifted_between (.same (by simp)) h hnext.offset).within _

theorem agrees_parseString {quote : Char} (hquote : quote ≠ '\\') (h : Twin k r r' c c') :
    (parseString quote c).Agrees k r r' (parseString quote c') := by
  cases hbody : body? quote c.advance.ahead with
  | none =>
    refine Step.agrees_of_fails (fails_parseString.2 ⟨hbody, rfl, rfl⟩) fun hlen => ?_
    -- The first run reads its whole text, so nothing follows in either.
    obtain rfl : r = [] := List.eq_nil_of_length_eq_zero (Nat.le_zero.1 hlen)
    obtain rfl : r' = [] := List.head?_eq_none_iff.1 hr.symm
    have hahead : c'.ahead = c.ahead := by
      obtain ⟨v, hv, hv'⟩ := h.ahead
      rw [hv, hv']
    have hend : Twin k [] [] c.toEnd c'.toEnd :=
      h.of_le c.le_toEnd c'.le_toEnd (List.append_nil _).symm
        (by rw [hahead]; exact (List.append_nil _).symm) (Nat.zero_le _)
    have hbody' : body? quote c'.advance.ahead = none := by
      rw [Cursor.ahead_advance, hahead, ← Cursor.ahead_advance, hbody]
    exact ⟨_, _, fails_parseString.2 ⟨hbody', rfl, rfl⟩, hend,
      (shifted_between (.same (by simp)) h hend.offset).within _⟩
  | some b =>
    obtain ⟨body, rest⟩ := b
    have hw : c.advance.ahead = (body ++ [quote]) ++ rest := by simp [eq_of_body? hbody]
    have hle {a : Cursor} {t : List Char} (ha : a.advance.ahead = (body ++ [quote]) ++ t) :
        a ≤ a.advance.past _ t ha := a.le_trans a.le_advance (Cursor.le_past ha)
    refine Step.agrees_of_finds (d := c.advance.past _ rest hw)
      (finds_parseString.2 ⟨hle hw, body, hbody, rfl⟩) fun hlen => ?_
    have hadvance : Twin k r r' c.advance c'.advance := by
      refine h.advance hr (Nat.le_trans hlen ?_)
      rw [hw, List.length_append]
      exact Nat.le_add_left _ _
    obtain ⟨v, rfl, hw'⟩ := hadvance.past hw hlen
    have hbody' : body? quote c'.advance.ahead = some (body, v ++ r') := by
      rw [hw', List.append_assoc]
      exact (body?_of_quoted _ hquote (quoted_of_body? hbody)).1
    exact ⟨c'.advance.past _ _ hw', finds_parseString.2 ⟨hle hw', body, hbody', rfl⟩,
      hadvance.of_le (Cursor.le_past hw) (Cursor.le_past hw') hw hw' hlen⟩

end

/-! ### Series -/

/-- The same list, of which the second opening bracket is `k` bytes further on. -/
theorem shifted_unclosed (hr : r.head? = r'.head?) (s : Series) {span span' : Span}
    (hspan : span.Shifted k span') (h : Twin k r r' c c') :
    (s.unclosed span c).Shifted k (s.unclosed span' c') :=
  (shifted_here hr (.unclosed hspan) h).within _

section

variable {s : Series} {span span' : Span} {element : (d : Cursor) → c ≤ d → Step α d}
  {element' : (d : Cursor) → c' ≤ d → Step α d}

theorem skipSpace_le_next_parseSlots {hd : c ≤ d} :
    d.skipSpace ≤ (parseSlots s span element d hd).next := by
  rw [parseSlots]
  dsimp only
  split
  · exact Cursor.le_refl _
  · split
    · exact Cursor.le_advance _
    · exact Step.le_next_since_bind _ _ _

theorem agrees_parseSlot (hr : r.head? = r'.head?) {x : Char} {hd : c ≤ d} {hd' : c' ≤ d'}
    (h : Twin k r r' d d') (helement : (element d hd).Agrees k r r' (element' d' hd')) :
    (parseSlot s x d hd element).Agrees k r r' (parseSlot s x d' hd' element') := by
  unfold parseSlot
  by_cases hx : x = s.separator
  · rw [if_pos hx, if_pos hx]
    split
    · exact (Step.agrees_done fun _ => ⟨h, rfl⟩).after _ _
    · exact Step.agrees_fail fun _ => ⟨h, (shifted_here hr (.same (by simp)) h).within _⟩
  · rw [if_neg hx, if_neg hx]
    exact (helement.map some).after _ _

/-- Lists agree if their elements do, whatever the form of the list. -/
theorem agrees_parseSlots (hr : r.head? = r'.head?) (hspan : span.Shifted k span')
    (helement : ∀ (d d' : Cursor) (hd : c ≤ d) (hd' : c' ≤ d'), Twin k r r' d d' →
      (element d hd).Agrees k r r' (element' d' hd'))
    {hd : c ≤ d} {hd' : c' ≤ d'} (h : Twin k r r' d d') :
    (parseSlots s span element d hd).Agrees k r r' (parseSlots s span' element' d' hd') := by
  induction hn : d.ahead.length using Nat.strong_induction_on generalizing d d' with
  | _ n ih =>
    subst hn
    refine Step.agrees_of_le skipSpace_le_next_parseSlots fun hlen => ?_
    have he := h.skipSpace hr hlen
    rw [parseSlots, parseSlots]
    dsimp only
    rw [he.current hr]
    cases hx : d.skipSpace.current with
    | none => exact Step.agrees_fail fun _ => ⟨he, shifted_unclosed hr s hspan he⟩
    | some x =>
      dsimp only
      split
      · exact Step.agrees_done fun hlen => ⟨he.advance hr hlen, rfl⟩
      · refine Step.Agrees.bind (Step.agrees_since fun _ =>
          agrees_parseSlot hr he (helement _ _ _ _ he)) fun slot f f' hf hf' hff => ?_
        refine Step.agrees_of_le (d := f.skipSpace) ?_ fun hlen => ?_
        · split
          · exact Cursor.le_refl _
          · split
            · exact Cursor.le_advance _
            · split
              · exact Cursor.le_trans (Cursor.le_advance _) (Step.le_next _)
              · exact Cursor.le_refl _
        · have hg := hff.skipSpace hr hlen
          have hcur := hg.current hr
          split
          · rename_i hend
            split
            · exact Step.agrees_fail fun _ => ⟨hg, shifted_unclosed hr s hspan hg⟩
            · simp_all [Cursor.current]
          · rename_i y ys hy
            generalize hfirst : ite (y = s.terminator) _ _ = first
            split
            · simp_all [Cursor.current]
            · rename_i y' ys' hy'
              obtain rfl : y' = y := by simpa [Cursor.current, hy, hy'] using hcur
              subst hfirst
              split
              · exact Step.agrees_done fun hlen => ⟨hg.advance hr hlen, rfl⟩
              split
              · refine Step.agrees_since fun hlen => Step.Agrees.map ?_ _
                exact ih _ (Nat.lt_of_lt_of_le (Cursor.length_ahead_advance_lt hy)
                  (Cursor.length_ahead_le (d.le_trans hf f.le_skipSpace)))
                  (hg.advance hr hlen) rfl
              · exact Step.agrees_fail fun _ =>
                  ⟨hg, (shifted_here hr (.same (by simp)) hg).within _⟩

end

/-! ### Productions -/

/-- The parsers for inner patterns agree at related places. -/
def LaterAgrees (k : Nat) (r r' : List Char) (inner : Later c) (inner' : Later c') : Prop :=
  ∀ (d d' : Cursor) (hd : c < d) (hd' : c' < d'), Twin k r r' d d' →
    (inner d hd).Agrees k r r' (inner' d' hd')

section

variable {inner : Later c} {inner' : Later c'} (hr : r.head? = r'.head?)

include hr

theorem shifted_currentSpan (h : Twin k r r' c c') : c.currentSpan.Shifted k c'.currentSpan :=
  ⟨c.offset, c.advance.offset, rfl, by rw [← h.offset, ← h.offset_advance hr]; rfl⟩

theorem agrees_parseElements (hinner : LaterAgrees k r r' inner inner') (h : Twin k r r' c c')
    {hlt : c < c.advance} {hlt' : c' < c'.advance} :
    (parseElements c hlt inner).Agrees k r r' (parseElements c' hlt' inner') :=
  Step.agrees_since fun hlen => (agrees_parseSlots hr (shifted_currentSpan hr h)
    (fun _ _ _ _ hd => hinner _ _ _ _ hd) (h.advance hr hlen)).map _

theorem agrees_parseEntry (hinner : LaterAgrees k r r' inner inner') (h : Twin k r r' c c') :
    (parseEntry c inner).Agrees k r r' (parseEntry c' inner') := by
  refine ((agrees_parseWord hr h).within _).bind fun key d d' hd hd' hdd => ?_
  refine Step.agrees_of_le (d := d.skipSpace) ?_ fun hlen => ?_
  · dsimp only
    split
    · split
      · exact Cursor.le_advance _
      · exact Cursor.le_trans (Cursor.le_advance _) (Step.le_next _)
    · split
      · exact Cursor.le_refl _
      · exact Cursor.le_refl _
  have he := hdd.skipSpace hr hlen
  have hreserved {g g' : Cursor} {hg : d ≤ g} {hg' : d' ≤ g'}
      (hgg : r.length ≤ g.ahead.length → Twin k r r' g g') :
      (Step.fail (reservedKeyError key c d) g hg : Step Entry d).Agrees k r r'
        (Step.fail (reservedKeyError key c' d') g' hg' : Step Entry d') :=
    Step.agrees_fail fun hlen =>
      ⟨hgg hlen, (shifted_between (.same (by simp)) h hdd.offset).within _⟩
  dsimp only
  by_cases hcolon : d.skipSpace.current = some ':'
  · have hcolon' : d'.skipSpace.current = some ':' := (he.current hr).trans hcolon
    rw [dif_pos hcolon, dif_pos hcolon']
    split
    · exact hreserved (he.advance hr)
    · exact Step.agrees_since fun hlen => (hinner _ _ _ _ (he.advance hr hlen)).map _
  · have hcolon' : ¬ d'.skipSpace.current = some ':' := by rw [he.current hr]; exact hcolon
    rw [dif_neg hcolon, dif_neg hcolon']
    split
    · exact hreserved fun _ => he
    · exact Step.agrees_done fun _ => ⟨he, rfl⟩

theorem agrees_parseEntries (hinner : LaterAgrees k r r' inner inner') (h : Twin k r r' c c')
    {hlt : c < c.advance} {hlt' : c' < c'.advance} :
    (parseEntries c hlt inner).Agrees k r r' (parseEntries c' hlt' inner') :=
  Step.agrees_since fun hlen => (agrees_parseSlots hr (shifted_currentSpan hr h)
    (fun _ _ _ _ hd => agrees_parseEntry hr (fun _ _ _ _ he => hinner _ _ _ _ he) hd)
    (h.advance hr hlen)).map _

theorem agrees_parseArguments (hinner : LaterAgrees k r r' inner inner')
    (h : Twin k r r' c c') :
    (parseArguments c inner).Agrees k r r' (parseArguments c' inner') := by
  have hcur := h.current hr
  unfold parseArguments
  by_cases hsquare : c.current = some '['
  · rw [dif_pos hsquare, dif_pos (hcur.trans hsquare)]
    exact (agrees_parseElements hr hinner h).map _
  have hsquare' : ¬ c'.current = some '[' := hcur ▸ hsquare
  rw [dif_neg hsquare, dif_neg hsquare']
  by_cases hcurly : c.current = some '\x7b'
  · rw [dif_pos hcurly, dif_pos (hcur.trans hcurly)]
    exact (agrees_parseEntries hr hinner h).map _
  have hcurly' : ¬ c'.current = some '\x7b' := hcur ▸ hcurly
  rw [dif_neg hcurly, dif_neg hcurly']
  exact Step.agrees_done fun _ => ⟨h, rfl⟩

theorem agrees_parseClosing {name : String} {span span' : Span} {as : Arguments}
    (hspan : span.Shifted k span') (h : Twin k r r' c c') :
    (parseClosing name span as c).Agrees k r r' (parseClosing name span' as c') := by
  refine Step.agrees_of_le (d := c.skipSpace) ?_ fun hlen => ?_
  · unfold parseClosing
    dsimp only
    split
    · split
      · exact Cursor.le_advance _
      · exact Cursor.le_refl _
    · exact Cursor.le_refl _
  have hd := h.skipSpace hr hlen
  unfold parseClosing
  dsimp only
  rw [hd.current hr]
  cases c.skipSpace.current with
  | none => exact Step.agrees_fail fun _ => ⟨hd, (shifted_here hr (.unclosed hspan) hd).within _⟩
  | some x =>
    dsimp only
    split
    · exact Step.agrees_done fun hlen => ⟨hd.advance hr hlen, rfl⟩
    · exact Step.agrees_fail fun _ => ⟨hd, (shifted_unexpected hr _ hd).within _⟩

/-- Whether a word names a constructor is decided by the character after its white space. -/
theorem agrees_parseTagged {acceptWord : Bool} (hinner : LaterAgrees k r r' inner inner')
    (h : Twin k r r' c c') :
    (parseTagged acceptWord c inner).Agrees k r r' (parseTagged acceptWord c' inner') := by
  refine (agrees_parseWord hr h).bind fun name d d' hd hd' hdd => ?_
  refine Step.agrees_of_le (d := d.skipSpace) ?_ fun hlen => ?_
  · dsimp only
    split
    · split
      · exact Cursor.le_refl _
      · exact Cursor.le_trans (Cursor.le_advance_of_le (Cursor.le_refl _))
          (Cursor.le_trans (Cursor.le_skipSpace _) (Step.le_next _))
    · split
      · exact Cursor.le_refl _
      · exact Cursor.le_refl _
  have he := hdd.skipSpace hr hlen
  dsimp only
  by_cases hopen : d.skipSpace.current = some '('
  · have hopen' : d'.skipSpace.current = some '(' := (he.current hr).trans hopen
    rw [dif_pos hopen, dif_pos hopen']
    split
    · exact Step.agrees_fail fun _ =>
        ⟨he, (shifted_between (.same (by simp)) h hdd.offset).within _⟩
    · refine Step.agrees_since fun hlen => Step.Agrees.after ?_ _ _
      have hadvance := he.advance hr
        (Nat.le_trans hlen (Cursor.length_ahead_le (Cursor.le_skipSpace _)))
      exact (agrees_parseArguments hr (fun _ _ _ _ hg => hinner _ _ _ _ hg)
        (hadvance.skipSpace hr hlen)).bind fun as g g' _ _ hg =>
          agrees_parseClosing hr (shifted_currentSpan hr he) hg
  · have hopen' : ¬ d'.skipSpace.current = some '(' := by rw [he.current hr]; exact hopen
    rw [dif_neg hopen, dif_neg hopen']
    split
    · exact Step.agrees_done fun _ => ⟨he, rfl⟩
    · exact Step.agrees_fail fun _ => ⟨he, (shifted_unexpected hr _ he).within _⟩

/-- The kind of a pattern is decided by its first character. -/
theorem agrees_parseKind (hinner : LaterAgrees k r r' inner inner') (h : Twin k r r' c c') :
    (parseKind c inner).Agrees k r r' (parseKind c' inner') := by
  have hcur := h.current hr
  cases hx : c.current with
  | none =>
    have hfail {a : Cursor} (ha : a.current = none) (inner : Later a) :
        parseKind a inner = .fail (.unexpected "a pattern" a) a a.le_refl := by
      unfold parseKind
      split
      · rfl
      · simp_all
    rw [hfail hx, hfail (hcur.trans hx)]
    exact Step.agrees_fail fun _ => ⟨h, shifted_unexpected hr _ h⟩
  | some x =>
    rw [parseKind_eq hx, parseKind_eq (hcur.trans hx)]
    split
    · exact (agrees_parseElements hr hinner h).map _
    split
    · exact (agrees_parseEntries hr hinner h).map _
    split
    · rename_i hquote
      exact agrees_parseString hr (by rcases hquote with rfl | rfl <;> decide) h
    split
    · exact agrees_parseNumber hr h
    split
    · exact agrees_parseTagged hr hinner h
    · exact Step.agrees_fail fun _ => ⟨h, shifted_unexpected hr _ h⟩

end

/-- **What the parser does before it has passed into `r` does not depend on `r`**, but for its first
character. -/
theorem agrees_parsePattern (hr : r.head? = r'.head?) (h : Twin k r r' c c') :
    (parsePattern c).Agrees k r r' (parsePattern c') := by
  induction hn : c.ahead.length using Nat.strong_induction_on generalizing c c' with
  | _ n ih =>
    subst hn
    rw [parsePattern, parsePattern]
    refine Step.agrees_since fun hlen => ?_
    have hinner : LaterAgrees k r r' (later c.skipSpace) (later c'.skipSpace) :=
      fun d d' hd _ hdd => ih _ (Nat.lt_of_lt_of_le (Cursor.length_ahead_lt hd)
        (Cursor.length_ahead_le c.le_skipSpace)) hdd rfl
    exact (((agrees_parseKind hr hinner (h.skipSpace hr hlen)).within _).called _ _).bind
      fun p d d' _ _ hdd => Step.agrees_done fun hlen => ⟨hdd.skipSpace hr hlen, rfl⟩

end Destructure
