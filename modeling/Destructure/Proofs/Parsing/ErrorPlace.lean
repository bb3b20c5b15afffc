import Destructure.Proofs.Parsing.Brackets
import Destructure.Proofs.Parsing.Completeness

/-!
# Destructure.Proofs.Parsing.ErrorPlace

Every error of reading a pattern tells of the text what is there: `faithful_of_parse_error`.

Design points:

* An error of a text is about a stretch `w` of it, with `before` and `after` around. `PlacedIn` says
  that the span is that of `w`, that the remainder starts there, and that what the cause carries
  agrees with `w` (`Cause.AgreesWith`).
* For an unclosed bracket, the scan of `Brackets` tells which one that is.
* Offsets take 32 bits, so the text must not be longer than the greatest one.

Proof shape: `Fault` says which places each error was built from, and `placedIn_between` turns two
places into a stretch of the text.
-/

namespace Destructure

open Text

variable {c d f : Cursor} {e : ParseError}

/-- The span is that of `w`, which stands after `before`. -/
def Span.Covers (s : Span) (before w : List Char) : Prop :=
  s.start.toNat = byteLength before ∧ s.stop.toNat = byteLength (before ++ w)

namespace ParseError

/-- What the cause says of a text agrees with the text, if the error is about `w`. -/
def Cause.AgreesWith (cause : Cause) (before w after : List Char) : Prop :=
  match cause with
  | .unexpectedCharacter found _ | .invalidIdentifier found => w = [found]
  | .blankNotAllowed => w = [',']
  | .reservedConstructor text | .reservedKey text | .invalidNumber text => w = text.toList
  | .unterminatedString quote => (∃ s, w = quote :: s) ∧ after = []
  | .trailingInput => w ≠ [] ∧ after = []
  | .unexpectedEnd _ => w = [] ∧ after = []
  | .unclosed opening closing openSpan => w = [] ∧ after = [] ∧
      ∃ (b : Bracket) (outer inner : List Char) (opened : List Bracket),
        b.opening = opening ∧ b.closing = closing ∧ before = outer ++ opening :: inner ∧
          openSpan.Covers outer [opening] ∧ LeavesOpen outer opened ∧ Balanced inner

/-- The error is about a stretch of the text, and agrees with it. -/
def PlacedIn (e : ParseError) (text : List Char) : Prop :=
  ∃ before w after, text = before ++ w ++ after ∧ e.span.Covers before w ∧
    e.remainder = String.ofList (w ++ after) ∧ e.cause.AgreesWith before w after

/-- The error says of the text what is there, and no more than its cause does otherwise. -/
structure FaithfulTo (e : ParseError) (text : List Char) : Prop where
  code : e.code = e.cause.code
  message : e.message = e.cause.message
  help : e.help = e.cause.hint?.toList
  place : e.PlacedIn text
  /-- Only what follows a complete pattern is outside of every production. -/
  production : e.production = none ↔ e.cause = .trailingInput

end ParseError

open Cursor (Between)

/-! ### Places and stretches -/

namespace Cursor

variable {w : List Char}

theorem byteLength_behind (c : Cursor) : byteLength c.behind.reverse = c.offset := by
  rw [byteLength_reverse, c.offset_eq]

theorem Between.offset_stop (h : Between c w d) :
    d.offset = byteLength (c.behind.reverse ++ w) := by
  rw [← d.byteLength_behind, h.behind, List.reverse_append, List.reverse_reverse]

theorem Between.advance_nil (h : c.ahead = []) : Between c [] c.advance :=
  ⟨c.le_advance, by rw [Cursor.ahead_advance, h]; rfl⟩

theorem Between.toEnd (c : Cursor) : Between c c.ahead c.toEnd :=
  ⟨c.le_toEnd, (List.append_nil _).symm⟩

theorem textFrom_of_between (h : Between c w d) : d.textFrom c.offset = w := by
  have hbehind : d.behind.reverse = c.behind.reverse ++ w := by
    rw [h.behind, List.reverse_append, List.reverse_reverse]
  rw [textFrom, hbehind, ← c.byteLength_behind, cutAtByte?_byteLength]
  rfl

end Cursor

/-- Within the bound a span is the stretch that it was made from. -/
theorem covers_spanFrom {w : List Char} (h : Between c w d)
    (hlen : byteLength c.text ≤ Span.maxOffset) :
    (d.spanFrom c.offset).Covers c.behind.reverse w := by
  have htext : byteLength c.text = byteLength (c.behind.reverse ++ w) + byteLength d.ahead := by
    simp [Cursor.text, h.ahead, Nat.add_assoc]
  have hstop := h.offset_stop
  have hstart := c.byteLength_behind
  rw [byteLength_append] at htext hstop
  constructor
  · rw [Cursor.spanFrom, Span.ofOffsets, Span.toNat_bound_of_le, hstart]
    omega
  · rw [Cursor.spanFrom, Span.ofOffsets, Span.toNat_bound_of_le, hstop, byteLength_append]
    omega

/-- An error from one place to another is about the text between them. -/
theorem placedIn_between {w : List Char} {cause : ParseError.Cause} (h : Between c w d)
    (hlen : byteLength c.text ≤ Span.maxOffset)
    (hcause : cause.AgreesWith c.behind.reverse w d.ahead) :
    (ParseError.between cause c d).PlacedIn c.text := by
  have hcovers := covers_spanFrom h hlen
  have hstart : (d.spanFrom c.offset).start.toNat = c.offset :=
    hcovers.1.trans c.byteLength_behind
  have hrest : c.toEnd.textFrom (d.spanFrom c.offset).start.toNat = w ++ d.ahead := by
    rw [hstart, Cursor.textFrom_of_between (.toEnd c), h.ahead]
  exact ⟨c.behind.reverse, w, d.ahead, by simp [Cursor.text, h.ahead], hcovers,
    congrArg String.ofList hrest, hcause⟩

/-! ### Flaws -/

theorem agreesWith_of_found {cause : ParseError.Cause} {x : Char} (h : cause.found? = some x)
    (before after : List Char) : cause.AgreesWith before [x] after := by
  cases cause with
  | unexpectedCharacter | invalidIdentifier | blankNotAllowed => cases h; rfl
  | _ => cases h

theorem agreesWith_of_refused {cause : ParseError.Cause} {w : List Char}
    (h : cause.refused? = some w) (before after : List Char) : cause.AgreesWith before w after := by
  cases cause with
  | reservedConstructor | reservedKey | invalidNumber => cases h; rfl
  | _ => cases h

/-- Where a flaw is, if the part starts outside of string literals. -/
theorem Flaw.placedIn {q : Part} {opened : List Bracket} (h : Flaw q c e d)
    (hopen : LeavesOpen c.behind.reverse opened) (hlen : byteLength c.text ≤ Span.maxOffset) :
    e.PlacedIn c.text := by
  cases h with
  | stray _ hcd hx hfound =>
    rw [Cursor.text_eq_of_le hcd.le] at hlen ⊢
    exact placedIn_between (.advance hx) hlen (agreesWith_of_found hfound _ _)
  | ends _ hcd hend =>
    rw [Cursor.text_eq_of_le hcd.le] at hlen ⊢
    have hstay := Between.advance_nil hend
    exact placedIn_between hstay hlen ⟨rfl, hstay.ahead.symm.trans hend⟩
  | @unclosed b _ _ t ht hcd hend =>
    have hopening : c.current = some b.opening := Cursor.current_eq_some.2 ⟨_, hcd.ahead⟩
    have hspan : c.currentSpan.Covers c.behind.reverse [b.opening] :=
      covers_spanFrom (.advance hopening) hlen
    rw [Cursor.text_eq_of_le hcd.le] at hlen ⊢
    have hstay := Between.advance_nil hend
    have hbefore : d.behind.reverse = c.behind.reverse ++ b.opening :: t := by simp [hcd.behind]
    exact placedIn_between hstay hlen ⟨rfl, hstay.ahead.symm.trans hend, b, _, t, opened, rfl, rfl,
      hbefore, hspan, hopen, (neutral_of_contents ht).balanced⟩
  | unterminated _ hquote _ =>
    exact placedIn_between (.toEnd c) hlen ⟨⟨_, Cursor.ahead_of_current hquote⟩, rfl⟩
  | token hcd hrefused => exact placedIn_between hcd hlen (agreesWith_of_refused hrefused _ _)

/-- The error of a part lies in the text, inside of what is open around the part. -/
theorem Fault.placedIn {q : Part} {opened : List Bracket} (h : Fault q c e d)
    (hopen : LeavesOpen c.behind.reverse opened) (hlen : byteLength c.text ≤ Span.maxOffset) :
    e.PlacedIn c.text := by
  induction h generalizing opened with
  | here hflaw => exact hflaw.placedIn hopen hlen
  | inside henters hcf _ ih =>
    obtain ⟨opened', hrun⟩ := outside_of_enters henters opened
    rw [Cursor.text_eq_of_le hcf.le] at hlen ⊢
    refine @ih opened' ?_ hlen
    rw [hcf.behind, List.reverse_append, List.reverse_reverse]
    exact hopen.append hrun

/-- On its way out an error keeps the words of its cause. -/
theorem Fault.words_eq {q : Part} (h : Fault q c e d) :
    e.code = e.cause.code ∧ e.message = e.cause.message ∧ e.help = e.cause.hint?.toList := by
  induction h with
  | here hflaw => cases hflaw <;> exact ⟨rfl, rfl, rfl⟩
  | inside _ _ _ ih => exact ih

/-- An error inside a pattern names a production, and is not about what follows the pattern. -/
theorem Fault.production_ne_none {q : Part} (h : Fault q c e d) :
    e.production ≠ none ∧ e.cause ≠ .trailingInput := by
  induction h with
  | here hflaw =>
    cases hflaw with
    | @stray _ _ _ _ _ cause _ _ _ _ hfound =>
      have hcause : cause ≠ .trailingInput := by
        rintro rfl
        cases hfound
      exact ⟨nofun, hcause⟩
    | @token _ _ _ _ _ cause _ _ hrefused =>
      have hcause : cause ≠ .trailingInput := by
        rintro rfl
        cases hrefused
      exact ⟨nofun, hcause⟩
    | _ => exact ⟨nofun, nofun⟩
  | inside _ _ _ ih => exact ih

/-! ### Texts -/

theorem leavesOpen_of_spaces {u : List Char} (hu : Spaces u) : LeavesOpen u [] :=
  neutral_of_spaces hu []

/-- Why a text is no pattern, if it is none. -/
def Pattern.parseCause? (text : String) : Option ParseError.Cause :=
  match Pattern.parse text with
  | .error e => some e.cause
  | .ok _ => none

theorem parseCause?_eq_some {text : String} {cause : ParseError.Cause} :
    Pattern.parseCause? text = some cause ↔
      ∃ e, Pattern.parse text = .error e ∧ e.cause = cause := by
  unfold Pattern.parseCause?
  cases Pattern.parse text with
  | ok p => simp
  | error e => simp

/-- **Every error of reading a text is faithful to the text.** -/
theorem faithful_of_parse_error (text : String) (e : ParseError)
    (hlen : byteLength text.toList ≤ Span.maxOffset) (h : Pattern.parse text = .error e) :
    e.FaithfulTo text.toList := by
  have hfails : (parseWhole (Cursor.ofString text)).Fails e _ := ⟨h, rfl⟩
  have htext : (Cursor.ofString text).text = text.toList := rfl
  rw [← htext] at hlen ⊢
  rcases fails_parseWhole.1 hfails with hpattern | ⟨p, hp, hrest, rfl⟩
  · have hfault := fault_of_parsePattern hpattern
    obtain ⟨u, hu, hcu⟩ := Between.exists_spaces (Cursor.ofString text)
    have hopen : LeavesOpen (Cursor.ofString text).skipSpace.behind.reverse [] := by
      rw [hcu.behind, List.reverse_append, List.reverse_reverse]
      exact leavesOpen_of_spaces hu
    obtain ⟨hprod, hcause⟩ := hfault.production_ne_none
    rw [Cursor.text_eq_of_le hcu.le] at hlen ⊢
    obtain ⟨hcode, hmessage, hhelp⟩ := hfault.words_eq
    exact ⟨hcode, hmessage, hhelp, hfault.placedIn hopen hlen, by simp [hprod, hcause]⟩
  · rw [Cursor.text_eq_of_le hp.le] at hlen ⊢
    exact ⟨rfl, rfl, rfl, placedIn_between (.toEnd _) hlen ⟨hrest, rfl⟩, by
      simp [ParseError.between, ParseError.ofCause]⟩

/-- Of several brackets that are open, the error names the innermost one. -/
theorem faithful_of_unclosed_arguments :
    byteLength "\x7bk: A([x, ']']".toList ≤ Span.maxOffset ∧
      ∃ e, Pattern.parse "\x7bk: A([x, ']']" = .error e ∧ e.cause = .unclosed '(' ')' ⟨5, 6⟩ ∧
        e.FaithfulTo "\x7bk: A([x, ']']".toList := by
  have hlen : byteLength "\x7bk: A([x, ']']".toList ≤ Span.maxOffset := by decide
  obtain ⟨e, he, hcause⟩ : ∃ e, Pattern.parse "\x7bk: A([x, ']']" = .error e ∧
      e.cause = .unclosed '(' ')' ⟨5, 6⟩ := parseCause?_eq_some.1 (by decide +kernel)
  exact ⟨hlen, e, he, hcause, faithful_of_parse_error _ e hlen he⟩

end Destructure
