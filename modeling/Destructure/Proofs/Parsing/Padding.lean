import Destructure.Proofs.Parsing.EntryPoints
import Destructure.Proofs.Parsing.ErrorPlace
import Destructure.Proofs.Parsing.Lookahead
import Destructure.Proofs.Text.Offsets

/-!
# Destructure.Proofs.Parsing.Padding

White space around a text is no part of what it says: `parse_padded`.

Design points:

* White space before a text moves the places that an error tells of, and changes nothing else. The
  offsets of `MovedBy` are numbers, so none of them may be lost at the end of their range.
* White space after a text changes no pattern that is found. It may change an error, which tells of
  what was left to read.

Proof shape: both runs start with the same text ahead (`Twin`, with nothing after it), so they agree
by the lemmas of `Lookahead`, up to offsets that are not stored as they are if they are too large.
That none is follows from where errors are (`ParseError.PlacedIn`). What is found after the text is
said by the grammar: a pattern does not end in white space.
-/

namespace Destructure

open Text

open Cursor (Between)

open ParseError (between unexpected here shifted_between)

variable {α : Type} {k : Nat} {c c' d f : Cursor} {e : ParseError}

/-! ### Moved errors -/

/-- The span, `k` bytes further on. -/
def Span.MovedBy (k : Nat) (s s' : Span) : Prop :=
  s'.start.toNat = s.start.toNat + k ∧ s'.stop.toNat = s.stop.toNat + k

namespace ParseError

/-- The same cause, with the place that it mentions `k` bytes further on. -/
inductive Cause.MovedBy (k : Nat) : Cause → Cause → Prop where
  | unclosed {opening closing : Char} {s s' : Span} : s.MovedBy k s' →
      MovedBy k (.unclosed opening closing s) (.unclosed opening closing s')
  | same {cause : Cause} : (∀ opening closing s, cause ≠ .unclosed opening closing s) →
      MovedBy k cause cause

/-- The same error, `k` bytes further on. -/
structure MovedBy (k : Nat) (e e' : ParseError) : Prop where
  cause : e.cause.MovedBy k e'.cause
  code : e'.code = e.code
  message : e'.message = e.message
  span : e.span.MovedBy k e'.span
  remainder : e'.remainder = e.remainder
  production : e'.production = e.production
  help : e'.help = e.help

end ParseError

/-- The same result, with an error `k` bytes further on. -/
inductive MovedResult (k : Nat) : Except ParseError α → Except ParseError α → Prop where
  | ok (a : α) : MovedResult k (.ok a) (.ok a)
  | error {e e' : ParseError} : e.MovedBy k e' → MovedResult k (.error e) (.error e')

/-- A span inside a text is moved as it is, if there is room for it. -/
theorem Span.Shifted.movedBy {s s' : Span} {before w t : List Char} (h : s.Shifted k s')
    (hcovers : s.Covers before w) (ht : byteLength (before ++ w) ≤ byteLength t)
    (hlen : byteLength t + k ≤ Span.maxOffset) : s.MovedBy k s' := by
  obtain ⟨a, b, rfl, rfl⟩ := h
  obtain ⟨hstart, hstop⟩ := hcovers
  rw [byteLength_append] at ht hstop
  simp only [Span.ofOffsets, Span.MovedBy, Span.toNat_bound] at hstart hstop ⊢
  omega

/-- What was left to read begins at the start of the span, so it is the same in a longer text if the
span starts as much further on. -/
theorem ParseError.PlacedIn.remainder_eq {e' : ParseError} {w t : List Char} (h : e.PlacedIn t)
    (h' : e'.PlacedIn (w ++ t)) (hstart : e'.span.start.toNat = e.span.start.toNat + byteLength w) :
    e'.remainder = e.remainder := by
  obtain ⟨before, u, after, rfl, ⟨hbefore, -⟩, hrest, -⟩ := h
  obtain ⟨before', u', after', htext, ⟨hbefore', -⟩, hrest', -⟩ := h'
  have hcuts : before' ++ (u' ++ after') = (w ++ before) ++ (u ++ after) := by
    rw [← List.append_assoc, ← htext]
    simp only [List.append_assoc]
  have hlength : byteLength before' = byteLength (w ++ before) := by
    rw [← hbefore', hstart, hbefore, byteLength_append, Nat.add_comm]
  rw [hrest, hrest', (cut_unique hcuts hlength).2]

/-- The bracket that a cause is about lies inside the text, so it is moved as it is. -/
theorem ParseError.Cause.Shifted.movedBy {cause cause' : Cause} {before u after : List Char}
    (h : cause.Shifted k cause') (hagrees : cause.AgreesWith before u after)
    (hlen : byteLength (before ++ u ++ after) + k ≤ Span.maxOffset) : cause.MovedBy k cause' := by
  cases h with
  | same hne => exact .same hne
  | @unclosed opening closing s s' hs =>
    obtain ⟨-, -, b, outer, inner, opened, -, -, rfl, hopen, -, -⟩ := hagrees
    exact .unclosed (hs.movedBy hopen (by simp) hlen)

theorem ParseError.Shifted.movedBy {e' : ParseError} {w t : List Char}
    (h : e.Shifted (byteLength w) e') (hplace : e.PlacedIn t) (hplace' : e'.PlacedIn (w ++ t))
    (hlen : byteLength t + byteLength w ≤ Span.maxOffset) : e.MovedBy (byteLength w) e' := by
  obtain ⟨before, u, after, rfl, hcovers, -, hagrees⟩ := id hplace
  have hspan : e.span.MovedBy (byteLength w) e'.span := h.span.movedBy hcovers (by simp) hlen
  have hcause : e.cause.MovedBy (byteLength w) e'.cause :=
    h.cause.movedBy hagrees hlen
  exact ⟨hcause, h.code, h.message, hspan, hplace.remainder_eq hplace' hspan.1, h.production,
    h.help⟩

theorem SameResult.moved {x x' : Except ParseError α} {w t : List Char}
    (hlen : byteLength t + byteLength w ≤ Span.maxOffset)
    (hplace : ∀ e, x = .error e → e.PlacedIn t)
    (hplace' : ∀ e, x' = .error e → e.PlacedIn (w ++ t))
    (h : SameResult (byteLength w) x x') : MovedResult (byteLength w) x x' := by
  cases h with
  | ok a => exact .ok a
  | error he => exact .error (he.movedBy (hplace _ rfl) (hplace' _ rfl) hlen)

/-! ### Whole texts -/

section

variable (h : Twin k [] [] c c')

include h

theorem agrees_parseEnd : (parseEnd c).Agrees k [] [] (parseEnd c') := by
  obtain ⟨v, hv, hv'⟩ := h.ahead
  have hahead : c'.ahead = c.ahead := hv'.trans hv.symm
  have hend : c'.toEnd.offset = c.toEnd.offset + k := by
    simp only [Cursor.toEnd, Cursor.offset_past, hahead, h.offset]
    omega
  unfold parseEnd Cursor.isAtEnd
  rw [hahead]
  split
  · exact Step.agrees_done fun _ => ⟨h, rfl⟩
  · exact Step.agrees_fail fun _ => ⟨h, shifted_between (.same (by simp)) h hend⟩

theorem agrees_parseWhole : (parseWhole c).Agrees k [] [] (parseWhole c') :=
  (agrees_parsePattern rfl h).bind fun _ _ _ _ _ hd => (agrees_parseEnd hd).map _

theorem agrees_parseWholeTagged :
    (parseWholeTagged c).Agrees k [] [] (parseWholeTagged c') := by
  have hinner : LaterAgrees k [] [] (later c.skipSpace) (later c'.skipSpace) :=
    fun _ _ _ _ hd => agrees_parsePattern rfl hd
  refine Step.Agrees.bind (Step.agrees_since fun _ => ?_) fun _ d d' _ _ hd => ?_
  · exact agrees_parseTagged rfl hinner (h.skipSpace rfl (Nat.zero_le _))
  · exact Step.agrees_since fun _ => (agrees_parseEnd (hd.skipSpace rfl (Nat.zero_le _))).map _

end

/-! ### White space before a text -/

/-- Steps that find and fail alike have the same result. -/
theorem Step.result_eq {s : Step α c} {s' : Step α d}
    (hfinds : ∀ a f, s.Finds a f → s'.Finds a f) (hfails : ∀ e f, s.Fails e f → s'.Fails e f) :
    s'.result = s.result := by
  cases hresult : s.result with
  | ok a => exact (hfinds a _ ⟨hresult, rfl⟩).1
  | error e => exact (hfails e _ ⟨hresult, rfl⟩).1

theorem fails_parseWholeTagged :
    (parseWholeTagged c).Fails e f ↔
      (parseWordPattern false c.skipSpace).Fails e f ∨
        ∃ p g, (parseWordPattern false c.skipSpace).Finds p g ∧ g.skipSpace.ahead ≠ [] ∧
          between .trailingInput g.skipSpace g.skipSpace.toEnd = e ∧ g.skipSpace = f := by
  simp only [parseWholeTagged, Step.fails_bind, Step.fails_since, Step.finds_since, Step.fails_map,
    fails_parseEnd]
  refine or_congr_right ⟨?_, ?_⟩
  · rintro ⟨p, g, -, hp, h⟩
    exact ⟨p, g, hp, h⟩
  · rintro ⟨p, g, hp, h⟩
    exact ⟨p, g, c.le_trans c.le_skipSpace hp.le, hp, h⟩

theorem Cursor.skipSpace_past {w rest : List Char} (hw : Spaces w) (h : c.ahead = w ++ rest) :
    (c.past w rest h).skipSpace = c.skipSpace := by
  refine Cursor.eq_of_ahead_eq (c.le_trans (le_past h) (le_skipSpace _)) c.le_skipSpace ?_
  simp only [skipSpace, ahead_skipWhile, ahead_past, h, dropWhile_spaces hw]

/-- Texts are read from where their white space ends. -/
theorem result_parseWhole_congr (h : c.skipSpace = d.skipSpace) :
    (parseWhole d).result = (parseWhole c).result := by
  refine Step.result_eq (fun p f hp => ?_) fun e f hp => ?_
  · rw [finds_parseWhole, finds_parsePattern] at hp ⊢
    rwa [h] at hp
  · simp only [fails_parseWhole, fails_parsePattern, finds_parsePattern] at hp ⊢
    rwa [h] at hp

theorem result_parseWholeTagged_congr (h : c.skipSpace = d.skipSpace) :
    (parseWholeTagged d).result = (parseWholeTagged c).result := by
  refine Step.result_eq (fun p f hp => ?_) fun e f hp => ?_
  · rw [finds_parseWholeTagged, finds_parseWhole, finds_parsePattern] at hp ⊢
    rwa [h] at hp
  · rw [fails_parseWholeTagged] at hp ⊢
    rwa [h] at hp

/-! ### Where errors of constructor patterns are -/

theorem placedIn_unexpected (expected : String) (hlen : byteLength c.text ≤ Span.maxOffset) :
    (unexpected expected c).PlacedIn c.text := by
  cases hx : c.current with
  | none =>
    have hend : c.ahead = [] := List.head?_eq_none_iff.1 hx
    have hstay := Between.advance_nil hend
    rw [ParseError.unexpected_of_ahead_nil _ hend]
    exact placedIn_between hstay hlen ⟨rfl, hstay.ahead.symm.trans hend⟩
  | some x =>
    rw [ParseError.unexpected_of_current _ hx]
    exact placedIn_between (.advance hx) hlen rfl

theorem placedIn_of_parseWordPattern {opened : List Bracket}
    (hopened : LeavesOpen c.behind.reverse opened) (hlen : byteLength c.text ≤ Span.maxOffset)
    (h : (parseWordPattern false c).Fails e f) : e.PlacedIn c.text := by
  have hcases := h
  simp only [parseWordPattern, parseTagged, Step.fails_bind] at hcases
  rcases hcases with hword | ⟨name, d, hcd, hword, hcases⟩
  · exact (flaw_of_parseWord .pattern .pattern hword).placedIn hopened hlen
  · by_cases hopen : d.skipSpace.current = some '('
    · have hfault : Fault .pattern c e f := fault_of_parseTagged_of_parenthesis
        laterSound_parsePattern laterFaulty_parsePattern hword hopen h
      exact hfault.placedIn hopened hlen
    · simp only [hopen, dite_false, Bool.false_eq_true, if_false, Step.fails_fail] at hcases
      obtain ⟨rfl, -⟩ := hcases
      rw [Cursor.text_eq_of_le (c.le_trans hcd d.le_skipSpace)] at hlen ⊢
      exact placedIn_unexpected "`(`" hlen

/-- As for all patterns, an error is about a stretch of the text. -/
theorem placedIn_of_parseTagged_error {text : String}
    (hlen : byteLength text.toList ≤ Span.maxOffset) (h : Pattern.parseTagged text = .error e) :
    e.PlacedIn text.toList := by
  have hfails : (parseWholeTagged (.ofString text)).Fails e _ := ⟨h, rfl⟩
  obtain ⟨u, hu, hcu⟩ := Between.exists_spaces (.ofString text)
  have htext : text.toList = (Cursor.ofString text).skipSpace.text := Cursor.text_eq_of_le hcu.le
  rw [htext] at hlen ⊢
  rcases fails_parseWholeTagged.1 hfails with hword | ⟨p, g, hp, hend, rfl, -⟩
  · have hopened : LeavesOpen (Cursor.ofString text).skipSpace.behind.reverse [] := by
      rw [hcu.behind, List.reverse_append, List.reverse_reverse]
      exact leavesOpen_of_spaces hu
    exact placedIn_of_parseWordPattern hopened hlen hword
  · rw [Cursor.text_eq_of_le (Cursor.le_trans hp.le g.le_skipSpace)] at hlen ⊢
    exact placedIn_between (.toEnd _) hlen ⟨hend, rfl⟩

/-! ### White space after a text -/

/-- What is read as a pattern ends with a character that is no white space. -/
theorem ends_of_derives_pattern {p : Pattern} {s : List Char} (h : Derives (.pattern p) s) :
    ∃ r x, s = r ++ [x] ∧ isSpace x = false := by
  have hlast {s : List Char} (hne : s ≠ []) (hall : ∀ x ∈ s, isNumberPart x = true) :
      ∃ r x, s = r ++ [x] ∧ isSpace x = false :=
    ⟨s.dropLast, s.getLast hne, (List.dropLast_append_getLast hne).symm,
      not_isSpace_of_isNumberPart (hall _ (List.getLast_mem hne))⟩
  have hword {w : String} (hw : isWord w = true) :
      ∃ r x, w.toList = r ++ [x] ∧ isSpace x = false := by
    obtain ⟨x, r, hx, -, hall⟩ := isWord_cases hw
    exact hlast (hx ▸ List.cons_ne_nil x r) fun y hy => isNumberPart_of_isWordPart (hall y hy)
  cases h with
  | array => exact ⟨_, ']', List.cons_append.symm, by decide⟩
  | object => exact ⟨_, '\x7d', List.cons_append.symm, by decide⟩
  | @tagged name as u v s w =>
    exact ⟨name.toList ++ u ++ '(' :: (v ++ s ++ w), ')', by simp, by decide⟩
  | binder hname => exact hword hname.1
  | constant k => exact hword (isWord_word k)
  | wildcard => exact ⟨[], '_', rfl, by decide⟩
  | number hn =>
    obtain ⟨x, r, rfl, -⟩ := exists_digit_of_numeral hn
    exact hlast (List.cons_ne_nil x r) (isNumberPart_of_numeral hn)
  | string hquote =>
    exact ⟨_, _, List.cons_append.symm, by rcases hquote with rfl | rfl <;> decide⟩

theorem spelledBy_append_spaces {p : Pattern} {t w : List Char} (hw : Spaces w) :
    p.SpelledBy (t ++ w) ↔ p.SpelledBy t := by
  constructor
  · rintro ⟨u, s, v, htw, hu, hs, hv⟩
    rcases List.append_eq_append_iff.1 htw with ⟨a, hus, rfl⟩ | ⟨a, rfl, rfl⟩
    -- The pattern would end in `a`, which is white space, so `a` is empty.
    · obtain ⟨r, x, rfl, hx⟩ := ends_of_derives_pattern hs
      rcases List.eq_nil_or_concat a with rfl | ⟨b, y, rfl⟩
      · rw [List.append_nil] at hus
        exact ⟨u, r ++ [x], [], by rw [List.append_nil, hus], hu, hs, spaces_nil⟩
      · rw [List.concat_eq_append, ← List.append_assoc, ← List.append_assoc] at hus
        obtain rfl := List.singleton_inj.1 (List.append_inj' hus rfl).2
        rw [hw x (by simp)] at hx
        cases hx
    · exact ⟨u, s, a, rfl, hu, hs, fun x hx => hv x (List.mem_append_left w hx)⟩
  · rintro ⟨u, s, v, rfl, hu, hs, hv⟩
    exact ⟨u, s, v ++ w, List.append_assoc .., hu, hs, hv.append hw⟩

/-- **White space around a text is no part of what it says.** Before the text it moves an error by
its own length and changes nothing else; after the text it changes no pattern that is read. -/
theorem parse_padded (w t : String) (hw : Spaces w.toList) :
    (byteLength w.toList + byteLength t.toList ≤ Span.maxOffset →
      MovedResult (byteLength w.toList) (Pattern.parse t) (Pattern.parse (w ++ t)) ∧
      MovedResult (byteLength w.toList) (Pattern.parseTagged t)
        (Pattern.parseTagged (w ++ t))) ∧
    (∀ p, Pattern.parse (t ++ w) = .ok p ↔ Pattern.parse t = .ok p) ∧
    ∀ p, Pattern.parseTagged (t ++ w) = .ok p ↔ Pattern.parseTagged t = .ok p := by
  have hafter (p : Pattern) : Pattern.parse (t ++ w) = .ok p ↔ Pattern.parse t = .ok p := by
    rw [parse_eq_ok_iff_spelledBy, parse_eq_ok_iff_spelledBy, String.toList_append]
    exact spelledBy_append_spaces hw
  refine ⟨fun hlen => ?_, hafter, fun p => ?_⟩
  · have hahead : (Cursor.ofString (w ++ t)).ahead = w.toList ++ t.toList := String.toList_append
    have hskip := Cursor.skipSpace_past hw hahead
    have htwin : Twin (byteLength w.toList) [] [] (.ofString t)
        ((Cursor.ofString (w ++ t)).past _ _ hahead) :=
      ⟨rfl, t.toList, (List.append_nil _).symm, (List.append_nil _).symm⟩
    rw [Nat.add_comm] at hlen
    have hroom : byteLength t.toList ≤ Span.maxOffset := by omega
    have hroom' : byteLength (w ++ t).toList ≤ Span.maxOffset := by
      rw [String.toList_append, byteLength_append]
      omega
    constructor
    · refine SameResult.moved hlen (fun e he => ?_) (fun e he => ?_) ?_
      · exact (faithful_of_parse_error t e hroom he).place
      · exact String.toList_append ▸ (faithful_of_parse_error (w ++ t) e hroom' he).place
      · unfold Pattern.parse
        rw [result_parseWhole_congr hskip]
        exact (agrees_parseWhole htwin (Nat.zero_le _)).2
    · refine SameResult.moved hlen (fun e he => placedIn_of_parseTagged_error hroom he)
        (fun e he => String.toList_append ▸ placedIn_of_parseTagged_error hroom' he) ?_
      unfold Pattern.parseTagged
      rw [result_parseWholeTagged_congr hskip]
      exact (agrees_parseWholeTagged htwin (Nat.zero_le _)).2
  · rw [parseTagged_eq_ok_iff, parseTagged_eq_ok_iff, hafter]

/-- White space may take more bytes than characters, and the bracket that an error tells of is moved
as well. -/
theorem parse_padded_of_unclosed :
    Spaces "\u2003\n".toList ∧
      byteLength "\u2003\n".toList + byteLength "A(['é'".toList ≤ Span.maxOffset ∧
      ∃ e e', Pattern.parse "A(['é'" = .error e ∧ e.cause = .unclosed '[' ']' ⟨2, 3⟩ ∧
        Pattern.parse ("\u2003\n" ++ "A(['é'") = .error e' ∧ e.MovedBy 4 e' := by
  have hw : Spaces "\u2003\n".toList := by
    intro x hx
    rcases List.mem_cons.1 hx with rfl | hx
    · decide
    · rw [List.mem_singleton.1 hx]
      decide
  have hlen : byteLength "\u2003\n".toList + byteLength "A(['é'".toList ≤ Span.maxOffset := by
    decide
  obtain ⟨e, he, hcause⟩ : ∃ e, Pattern.parse "A(['é'" = .error e ∧
      e.cause = .unclosed '[' ']' ⟨2, 3⟩ := parseCause?_eq_some.1 (by decide +kernel)
  obtain ⟨hmoved, -⟩ := (parse_padded _ _ hw).1 hlen
  rw [he] at hmoved
  generalize hresult : Pattern.parse ("\u2003\n" ++ "A(['é'") = result at hmoved
  cases hmoved with
  | @error _ e' hmoved => exact ⟨hw, hlen, e, e', he, hcause, rfl, hmoved⟩

end Destructure
