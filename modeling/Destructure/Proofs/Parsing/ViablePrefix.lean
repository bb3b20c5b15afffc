import Destructure.Proofs.Parsing.ErrorPlace
import Destructure.Proofs.Parsing.Lookahead

/-!
# Destructure.Proofs.Parsing.ViablePrefix

An error of reading a pattern comes up as early as one can: `viable_of_parse_error`.

What stands before a character that is refused can be completed to a pattern, and what stands up to
and with it cannot, whatever follows. If the text merely ends too early, all of it can be completed.
Reserved words and numbers are refused as a whole, so nothing is said of them.

Proof shape:

* `Spells q t` says that `t` is all of a part `q`. With what is open and with what has been entered
  (`Opens`, `Enters`) a part can always be completed, so by induction on the fault the pattern can.
* That nothing completes a text with the refused character is what `Lookahead` is for: the parser
  stops before that character, so it does the same on every text that starts in the same way.
-/

namespace Destructure

open Text

open Cursor (Between)

variable {c d f : Cursor} {e : ParseError}

/-! ### Completing a part -/

/-- The text is a part, from its first character to its last one. -/
def Spells : Part → List Char → Prop
  | .pattern, t => ∃ p, Derives (.pattern p) t
  | .entry, t => ∃ e, Derives (.entry e) t
  | .bracket b, t => ∃ s, b.Contents s ∧ t = b.opening :: (s ++ [b.closing])

theorem completes_of_opens {q : Part} {s : List Char} (h : Opens q s) : ∃ t, Spells q (s ++ t) := by
  cases h with
  | pattern => exact ⟨['_'], .wildcard, .wildcard⟩
  | entry => exact ⟨"x".toList, .shorthand "x", .shorthand (by decide)⟩
  | @bracket b t ht => exact ⟨[b.closing], t, ht, rfl⟩

/-- When the inner part is complete, the outer one is, or it is a bracket and still open. -/
theorem spells_or_contents_of_enters {q r : Part} {s x : List Char} (h : Enters q s r)
    (hx : Spells r x) :
    Spells q (s ++ x) ∨ ∃ b t, q = .bracket b ∧ b.Contents t ∧ s ++ x = b.opening :: t := by
  cases h with
  | array =>
    obtain ⟨t, ⟨ps, hps⟩, rfl⟩ := hx
    exact .inl ⟨_, .array hps⟩
  | object =>
    obtain ⟨t, ⟨es, hes⟩, rfl⟩ := hx
    exact .inl ⟨_, .object hes⟩
  | tagged hname hu =>
    obtain ⟨t, ⟨as, v, y, w, rfl, hv, has, hw⟩, rfl⟩ := hx
    exact .inl ⟨_, .tagged hname hu hv has hw⟩
  | @positional v hv =>
    obtain ⟨t, ⟨ps, hps⟩, rfl⟩ := hx
    have hargs := Derives.positional hps
    exact .inr ⟨.round, _, rfl, ⟨_, v, _, [], (List.append_nil _).symm, hv, hargs, spaces_nil⟩, rfl⟩
  | @keyed v hv =>
    obtain ⟨t, ⟨es, hes⟩, rfl⟩ := hx
    have hargs := Derives.keyed hes
    exact .inr ⟨.round, _, rfl, ⟨_, v, _, [], (List.append_nil _).symm, hv, hargs, spaces_nil⟩, rfl⟩
  | element hbefore =>
    obtain ⟨p, hp⟩ := hx
    obtain ⟨slots, -, hmore⟩ := hbefore.exists_slots
    have hspell : p.SpelledBy x := ⟨[], x, [], by simp, spaces_nil, hp, spaces_nil⟩
    exact .inr ⟨.square, _, rfl, ⟨_, derives_slots (hmore p x hspell)⟩, rfl⟩
  | item hbefore =>
    obtain ⟨entry, hentry⟩ := hx
    obtain ⟨slots, -, hmore⟩ := hbefore.exists_slots
    have hspell : entry.SpelledBy x := ⟨x, [], by simp, hentry, spaces_nil⟩
    exact .inr ⟨.curly, _, rfl, ⟨_, derives_entries (hmore entry x hspell)⟩, rfl⟩
  | value hkey hany hu hv =>
    obtain ⟨p, hp⟩ := hx
    have hentry := Derives.explicit hkey hany hu hv hp
    exact .inl ⟨_, by simpa using hentry⟩

/-- When the inner part is complete, the outer one can be completed. -/
theorem completes_of_enters {q r : Part} {s t : List Char} (h : Enters q s r) (ht : Spells r t) :
    ∃ u, Spells q (s ++ t ++ u) := by
  rcases spells_or_contents_of_enters h ht with hspells | ⟨b, x, rfl, hx, htext⟩
  · exact ⟨[], by simpa using hspells⟩
  · exact ⟨[b.closing], x, hx, by rw [htext]; rfl⟩

/-- A literal that has no end can be given one. -/
theorem completes_of_body?_eq_none {quote : Char} {s : List Char} (h : body? quote s = none) :
    ∃ u v, Quoted quote (s ++ u) v := by
  fun_induction body? quote s with
  | case1 => exact ⟨[], [], .nil⟩
  | case2 e s ih =>
    obtain ⟨u, v, hv⟩ := ih (by simpa using h)
    exact ⟨u, _, .escaped (escape_iff.2 rfl) hv⟩
  | case3 => cases h
  | case4 c s hlast hne ih =>
    obtain ⟨u, v, hv⟩ := ih (by simpa using h)
    by_cases hc : c = '\\'
    · subst hc
      -- Nothing can follow a backslash here, or it would have been taken with it.
      obtain rfl : s = [] := by
        cases s with
        | nil => rfl
        | cons e s => exact absurd rfl (hlast e s rfl)
      exact ⟨['\\'], _, .escaped (escape_iff.2 rfl) .nil⟩
    · exact ⟨u, _, .plain hne hc hv⟩

/-! ### Faults -/

namespace ParseError

/-- Is the cause that the text ends too early? -/
def Cause.isEnd : Cause → Bool
  | unexpectedEnd _ | unclosed .. | unterminatedString _ => true
  | _ => false

/-- Is the cause a character that cannot stand where it does? -/
def Cause.isStray : Cause → Bool
  | unexpectedCharacter .. | invalidIdentifier _ | blankNotAllowed | trailingInput => true
  | _ => false

theorem Cause.isEnd_of_found {cause : Cause} {x : Char} (h : cause.found? = some x) :
    cause.isEnd = false := by
  cases cause <;> first | rfl | cases h

theorem Cause.of_refused {cause : Cause} {w : List Char} (h : cause.refused? = some w) :
    cause.found? = none ∧ cause.isEnd = false := by
  cases cause <;> first | exact ⟨rfl, rfl⟩ | cases h

/-- A stray character is named by the cause, unless it follows a complete pattern. -/
theorem Cause.found_of_isStray {cause : Cause} (h : cause.isStray = true)
    (htrailing : cause ≠ .trailingInput) : ∃ x, cause.found? = some x := by
  cases cause with
  | unexpectedCharacter found | invalidIdentifier found => exact ⟨found, rfl⟩
  | blankNotAllowed => exact ⟨',', rfl⟩
  | trailingInput => exact absurd rfl htrailing
  | _ => cases h

end ParseError

open ParseError (Cause)

/-- Before a character that is refused the part can be completed, and there reading stops. -/
theorem Fault.completes_before {q : Part} {x : Char} (h : Fault q c e d)
    (hx : e.cause.found? = some x) :
    d.current = some x ∧ e.span.start = Span.bound d.offset ∧
      ∃ s t, Between c s d ∧ Spells q (s ++ t) := by
  induction h with
  | here hflaw =>
    cases hflaw with
    | stray hopens hcd hcur hfound =>
      obtain ⟨t, ht⟩ := completes_of_opens hopens
      obtain rfl := Option.some.inj (hfound.symm.trans hx)
      exact ⟨hcur, rfl, _, t, hcd, ht⟩
    | token _ hrefused => cases (Cause.of_refused hrefused).1.symm.trans hx
    | _ => cases hx
  | inside henters hcf _ ih =>
    obtain ⟨hcur, hstart, s, t, hfd, ht⟩ := ih hx
    obtain ⟨u, hu⟩ := completes_of_enters henters ht
    exact ⟨hcur, hstart, _, t ++ u, hcf.trans hfd, by simpa using hu⟩

/-- If the text ends too early, the part can be completed. -/
theorem Fault.completes_end {q : Part} (h : Fault q c e d) (hend : e.cause.isEnd = true) :
    ∃ t, Spells q (c.ahead ++ t) := by
  induction h with
  | here hflaw =>
    cases hflaw with
    | stray _ _ _ hfound => cases (Cause.isEnd_of_found hfound).symm.trans hend
    | ends hopens hcd hnil =>
      obtain ⟨t, ht⟩ := completes_of_opens hopens
      exact ⟨t, by rw [hcd.ahead, hnil, List.append_nil]; exact ht⟩
    | unclosed hcontents hcd hnil =>
      obtain ⟨t, ht⟩ := completes_of_opens (.bracket hcontents)
      exact ⟨t, by rw [hcd.ahead, hnil, List.append_nil]; exact ht⟩
    | @unterminated _ quote hquote hcur hbody =>
      obtain ⟨u, v, hv⟩ := completes_of_body?_eq_none hbody
      refine ⟨u ++ [quote], .string (String.ofList v), ?_⟩
      rw [Cursor.ahead_of_current hcur]
      simpa using Derives.string hquote hv
    | token _ hrefused => cases (Cause.of_refused hrefused).2.symm.trans hend
  | inside henters hcf _ ih =>
    obtain ⟨t, ht⟩ := ih hend
    obtain ⟨u, hu⟩ := completes_of_enters henters ht
    exact ⟨t ++ u, by rw [hcf.ahead]; simpa using hu⟩

/-! ### Texts -/

/-- Some text after it makes a pattern of it. -/
def Completable (t : List Char) : Prop := ∃ s p, Pattern.parse (String.ofList (t ++ s)) = .ok p

/-- The error is about `x` after `before`, and it could not have come up earlier or later. -/
structure ParseError.EarliestAt (e : ParseError) (before : List Char) (x : Char) : Prop where
  start : e.span.start.toNat = byteLength before
  completable : Completable before
  /-- What stands before trailing input is a pattern by itself. -/
  trailing : e.cause = .trailingInput → ∃ p, Pattern.parse (String.ofList before) = .ok p
  refused (s : List Char) : ∃ e', Pattern.parse (String.ofList (before ++ x :: s)) = .error e' ∧
    e'.cause = e.cause ∧ e'.span.start = e.span.start

theorem Cursor.Between.offset_eq {text : String} {s : List Char}
    (h : Between (Cursor.ofString text) s d) : d.offset = byteLength s := by
  rw [d.offset_eq, h.behind, byteLength_append, byteLength_reverse]
  rfl

/-- A text that has `before` and `x` at its start, next to another one that has. -/
theorem twin_ofString {before after : List Char} {x : Char} {text : String}
    (ht : text.toList = before ++ x :: after) (s : List Char) :
    Twin 0 (x :: after) (x :: s) (Cursor.ofString text)
      (Cursor.ofString (String.ofList (before ++ x :: s))) :=
  ⟨rfl, before, ht, String.toList_ofList⟩

theorem ParseError.Shifted.same_place {e' : ParseError}
    (h : e.Shifted 0 e') (hend : e.cause.isEnd = false) :
    e'.cause = e.cause ∧ e'.span.start = e.span.start := by
  obtain ⟨a, b, hs, hs'⟩ := h.span
  have hcause {cause cause' : Cause} (h : cause.Shifted 0 cause') (hend : cause.isEnd = false) :
      cause' = cause := by
    cases h with
    | unclosed => cases hend
    | same => rfl
  exact ⟨hcause h.cause hend, by rw [hs, hs']; rfl⟩

/-- An error that stops before `x` comes up whatever follows `x`. -/
theorem refused_of_fails {before after : List Char} {x : Char} {text : String}
    (ht : text.toList = before ++ x :: after)
    (h : (parsePattern (Cursor.ofString text)).Fails e d) (hd : d.ahead = x :: after)
    (hend : e.cause.isEnd = false) (s : List Char) :
    ∃ e', Pattern.parse (String.ofList (before ++ x :: s)) = .error e' ∧ e'.cause = e.cause ∧
      e'.span.start = e.span.start := by
  obtain ⟨e', d', hfails, hshift⟩ :=
    (agrees_parsePattern (by rfl) (twin_ofString ht s)).fails h (by rw [hd])
  exact ⟨e', (fails_parseWhole.2 (.inl hfails)).1, hshift.same_place hend⟩

/-- A pattern that stops before `x` is followed by `x` whatever follows that. -/
theorem refused_of_finds {before after : List Char} {x : Char} {text : String} {p : Pattern}
    (ht : text.toList = before ++ x :: after)
    (h : (parsePattern (Cursor.ofString text)).Finds p d) (hd : d.ahead = x :: after)
    (s : List Char) :
    ∃ e', Pattern.parse (String.ofList (before ++ x :: s)) = .error e' ∧
      e'.cause = .trailingInput ∧ e'.span.start = Span.bound d.offset := by
  obtain ⟨d', hfinds, htwin⟩ :=
    (agrees_parsePattern (by rfl) (twin_ofString ht s)).finds h (by rw [hd])
  have hrest : d'.ahead ≠ [] := by
    obtain ⟨v, -, hv⟩ := htwin.ahead
    simp [hv]
  refine ⟨_, (fails_parseWhole.2 (.inr ⟨p, hfinds, hrest, rfl⟩)).1, rfl, ?_⟩
  show Span.bound d'.offset = _
  rw [htwin.offset, Nat.add_zero]

theorem toNat_bound_offset {text : String} (hlen : byteLength text.toList ≤ Span.maxOffset)
    {before after : List Char} (ht : text.toList = before ++ after)
    (hd : d.offset = byteLength before) : (Span.bound d.offset).toNat = byteLength before := by
  rw [ht, byteLength_append] at hlen
  rw [Span.toNat_bound_of_le (by omega), hd]

theorem earliest_of_parsePattern {text : String}
    (hlen : byteLength text.toList ≤ Span.maxOffset)
    (h : (parsePattern (Cursor.ofString text)).Fails e d) (hstray : e.cause.isStray = true) :
    ∃ before x after, text.toList = before ++ x :: after ∧ e.EarliestAt before x := by
  have hfault := fault_of_parsePattern h
  have hcause := hfault.production_ne_none.2
  obtain ⟨x, hx⟩ := Cause.found_of_isStray hstray hcause
  obtain ⟨hcur, hstart, s, t, hsd, p, hp⟩ := hfault.completes_before hx
  obtain ⟨u, hu, hcu⟩ := Between.exists_spaces (Cursor.ofString text)
  have hbefore : Between (Cursor.ofString text) (u ++ s) d := hcu.trans hsd
  have hahead := Cursor.ahead_of_current hcur
  have ht : text.toList = (u ++ s) ++ x :: d.advance.ahead := by
    rw [← hahead]
    exact hbefore.ahead
  have hspell : p.SpelledBy (String.ofList (u ++ s ++ t)).toList := by
    rw [String.toList_ofList]
    exact ⟨u, s ++ t, [], by simp, hu, hp, spaces_nil⟩
  refine ⟨u ++ s, x, _, ht, ?_, ⟨t, p, parse_of_spelledBy hspell⟩, fun h => absurd h hcause,
    refused_of_fails ht h hahead (Cause.isEnd_of_found hx)⟩
  rw [hstart]
  exact toNat_bound_offset hlen ht hbefore.offset_eq

theorem earliest_of_trailing {text : String} {p : Pattern}
    (hlen : byteLength text.toList ≤ Span.maxOffset)
    (h : (parsePattern (Cursor.ofString text)).Finds p d) (hrest : d.ahead ≠ []) :
    ∃ before x after, text.toList = before ++ x :: after ∧
      (ParseError.between .trailingInput d d.toEnd).EarliestAt before x := by
  obtain ⟨before, hbefore, hspell⟩ := spelledBy_of_parsePattern h
  obtain ⟨x, after, hahead⟩ := List.exists_cons_of_ne_nil hrest
  have hbetween : Between (Cursor.ofString text) before d := ⟨h.le, hbefore⟩
  have ht : text.toList = before ++ x :: after := hahead ▸ hbefore
  have hparse : Pattern.parse (String.ofList before) = .ok p :=
    parse_of_spelledBy (by rw [String.toList_ofList]; exact hspell)
  refine ⟨before, x, after, ht, toNat_bound_offset hlen ht hbetween.offset_eq, ⟨[], p, ?_⟩,
    fun _ => ⟨p, hparse⟩, refused_of_finds ht h hahead⟩
  rw [List.append_nil]
  exact hparse

theorem completable_of_parsePattern {text : String}
    (h : (parsePattern (Cursor.ofString text)).Fails e d) (hend : e.cause.isEnd = true) :
    Completable text.toList := by
  obtain ⟨t, p, hp⟩ := (fault_of_parsePattern h).completes_end hend
  obtain ⟨u, hu, hcu⟩ := Between.exists_spaces (Cursor.ofString text)
  refine ⟨t, p, parse_of_spelledBy ?_⟩
  rw [String.toList_ofList]
  refine ⟨u, _, [], ?_, hu, hp, spaces_nil⟩
  rw [show text.toList = _ from hcu.ahead]
  simp

/-- **Errors are reported at the earliest possible position**: what stands before a stray character
can be completed and what ends with it cannot, and a text that ends too early can be completed. -/
theorem viable_of_parse_error (text : String) (e : ParseError)
    (hlen : byteLength text.toList ≤ Span.maxOffset) (h : Pattern.parse text = .error e) :
    (e.cause.isStray = true →
      ∃ before x after, text.toList = before ++ x :: after ∧ e.EarliestAt before x) ∧
    (e.cause.isEnd = true → Completable text.toList) := by
  have hfails : (parseWhole (Cursor.ofString text)).Fails e _ := ⟨h, rfl⟩
  rcases fails_parseWhole.1 hfails with hpattern | ⟨p, hp, hrest, rfl⟩
  · exact ⟨earliest_of_parsePattern hlen hpattern, completable_of_parsePattern hpattern⟩
  · exact ⟨fun _ => earliest_of_trailing hlen hp hrest, nofun⟩

/-- A binder is no arguments, but something else may follow the parenthesis. -/
theorem viable_of_stray_argument :
    byteLength "[A(x)]".toList ≤ Span.maxOffset ∧
      (∃ e before x after, Pattern.parse "[A(x)]" = .error e ∧
        "[A(x)]".toList = before ++ x :: after ∧ e.EarliestAt before x) ∧
      byteLength "[A(".toList ≤ Span.maxOffset ∧
        ∃ e, Pattern.parse "[A(" = .error e ∧ e.cause.isEnd = true ∧ Completable "[A(".toList := by
  have hlen : byteLength "[A(x)]".toList ≤ Span.maxOffset := by decide
  have hlen' : byteLength "[A(".toList ≤ Span.maxOffset := by decide
  obtain ⟨e, he, hcause⟩ : ∃ e, Pattern.parse "[A(x)]" = .error e ∧
      e.cause = .unexpectedCharacter 'x' "`[`, `\x7b` or `)`" :=
    parseCause?_eq_some.1 (by decide +kernel)
  obtain ⟨e', he', hcause'⟩ : ∃ e, Pattern.parse "[A(" = .error e ∧
      e.cause = .unclosed '(' ')' ⟨2, 3⟩ := parseCause?_eq_some.1 (by decide +kernel)
  obtain ⟨before, x, after, htext, hearliest⟩ :=
    (viable_of_parse_error _ e hlen he).1 (by rw [hcause]; rfl)
  have hend : e'.cause.isEnd = true := by rw [hcause']; rfl
  exact ⟨hlen, ⟨e, before, x, after, he, htext, hearliest⟩, hlen', e', he', hend,
    (viable_of_parse_error _ e' hlen' he').2 hend⟩

end Destructure
