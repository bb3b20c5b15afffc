import Destructure.Proofs.Parsing.Unclosed

/-!
# Destructure.Proofs.Parsing.Repair

The hint of an error about an unclosed bracket mends the text: `unclosed_hint_repairs`.

With the closing bracket that the hint names at its end, the text is a pattern, or it is refused for
a bracket that was opened further to the left. So adding what the hints ask for makes a pattern of
it, after one step for each bracket that was open.

Proof shape: a text is refused for an unclosed bracket exactly if it breaks off in one
(`breaksOff_of_parse`, `parse_of_breaksOff`), and with that bracket closed it breaks off further to
the left or spells a pattern (`BreaksOff.close`). The scan of `Brackets` counts the steps, since
each of them takes the last open bracket away.
-/

namespace Destructure

open Text

open Cursor (Between)

variable {e : ParseError} {text : String} {outer : List Char} {b : Bracket}

/-! ### Texts that break off -/

/-- The text breaks off in a pattern. The last bracket that is open is a `b`, with `outer` before
it. -/
def BreaksOff (text outer : List Char) (b : Bracket) : Prop :=
  ∃ u s t, Spaces u ∧ Pending .pattern s b t ∧ outer = u ++ s ∧ text = u ++ (s ++ b.opening :: t)

theorem start_of_unclosed {opening closing : Char} {span : Span}
    (h : e.Unclosed (Cursor.ofString text) outer b)
    (hcause : e.cause = .unclosed opening closing span) :
    opening = b.opening ∧ closing = b.closing ∧ span.start = Span.bound (byteLength outer) := by
  obtain ⟨d, hd, hcause'⟩ := h
  obtain ⟨rfl, rfl, rfl⟩ := ParseError.Cause.unclosed.inj (hcause.symm.trans hcause')
  exact ⟨rfl, rfl, congrArg Span.bound hd.offset_eq⟩

/-- A text that is refused for an unclosed bracket breaks off after that bracket. -/
theorem breaksOff_of_parse {opening closing : Char} {span : Span}
    (h : Pattern.parse text = .error e) (hcause : e.cause = .unclosed opening closing span) :
    ∃ outer b, BreaksOff text.toList outer b ∧ opening = b.opening ∧ closing = b.closing ∧
      span.start = Span.bound (byteLength outer) := by
  have hfails : (parseWhole (Cursor.ofString text)).Fails e _ := ⟨h, rfl⟩
  rcases fails_parseWhole.1 hfails with hpattern | ⟨p, -, -, rfl⟩
  · obtain ⟨u, hu, hcu⟩ := Between.exists_spaces (Cursor.ofString text)
    obtain ⟨s, b, t, hpending, hahead, herror⟩ := (fault_of_parsePattern hpattern).pending hcause
    have htext : text.toList = u ++ (s ++ b.opening :: t) := by
      rw [← hahead]
      exact hcu.ahead
    exact ⟨u ++ s, b, ⟨u, s, t, hu, hpending, rfl, htext⟩,
      start_of_unclosed (herror.since hcu) hcause⟩
  · cases hcause

theorem help_of_parse (h : Pattern.parse text = .error e) : e.help = e.cause.hint?.toList := by
  have hfails : (parseWhole (Cursor.ofString text)).Fails e _ := ⟨h, rfl⟩
  rcases fails_parseWhole.1 hfails with hpattern | ⟨p, -, -, rfl⟩
  · exact (fault_of_parsePattern hpattern).words_eq.2.2
  · rfl

/-- A text that breaks off is refused for the last bracket that is open. -/
theorem parse_of_breaksOff (h : BreaksOff text.toList outer b) :
    ∃ e span, Pattern.parse text = .error e ∧ e.cause = .unclosed b.opening b.closing span ∧
      span.start = Span.bound (byteLength outer) := by
  obtain ⟨u, s, t, hu, hpending, rfl, htext⟩ := h
  have hopen : (parsePattern (Cursor.ofString text)).FailsOpen (u ++ s) b :=
    failsOpen_parsePattern hu hpending.starts_of_pattern (failsOpen_of_pending hpending) htext
  obtain ⟨e, f, hfail, herror⟩ := hopen
  have herror' := herror
  obtain ⟨d, -, hcause⟩ := herror'
  exact ⟨e, _, (fails_parseWhole.2 (.inl hfail)).1, hcause, (start_of_unclosed herror hcause).2.2⟩

/-- With the last bracket closed, the text is a pattern or breaks off after a bracket further to the
left. -/
theorem BreaksOff.close {t : List Char} (h : BreaksOff t outer b) :
    (∃ p, Pattern.SpelledBy p (t ++ [b.closing])) ∨
      ∃ outer' b', BreaksOff (t ++ [b.closing]) outer' b' ∧
        byteLength outer' < byteLength outer := by
  obtain ⟨u, s, t, hu, hpending, rfl, rfl⟩ := h
  rcases hpending.close with ⟨p, hp⟩ | ⟨s', b', t', mid, hpending', hmid, rfl, htext⟩
  · exact .inl ⟨p, u, _, [], by simp, hu, hp, spaces_nil⟩
  · refine .inr ⟨u ++ s', b', ⟨u, s', t', hu, hpending', rfl, ?_⟩, ?_⟩
    · rw [← htext]
      simp
    · have hpos : 0 < byteLength mid :=
        Nat.pos_of_ne_zero fun h => hmid (byteLength_eq_zero.1 h)
      simp only [byteLength_append]
      omega

/-- The bracket that a text breaks off after is the last one that a scan finds open. -/
theorem BreaksOff.leavesOpen {t : List Char} (h : BreaksOff t outer b) :
    ∃ opened, LeavesOpen t (b :: opened) := by
  obtain ⟨u, s, t, hu, hpending, -, rfl⟩ := h
  obtain ⟨opened, hrun⟩ := hpending.run []
  exact ⟨opened, (leavesOpen_of_spaces hu).append hrun⟩

theorem leavesOpen_of_spelledBy {p : Pattern} {t : List Char} (h : p.SpelledBy t) :
    LeavesOpen t [] := by
  obtain ⟨u, s, w, rfl, hu, hs, hw⟩ := h
  exact Neutral.padded hu (neutral_of_derives hs) hw []

theorem LeavesOpen.unique {t : List Char} {opened opened' : List Bracket} (h : LeavesOpen t opened)
    (h' : LeavesOpen t opened') : opened = opened' :=
  congrArg BracketScan.opened (Option.some.inj (h.symm.trans h'))

/-! ### Doing what the hint says -/

/-- The text with one more closing bracket, if it is refused for want of it. -/
def closeLast? (text : String) : Option String :=
  match Pattern.parse text with
  | .ok _ => none
  | .error e =>
    match e.cause with
    | .unclosed _ closing _ => some (text.push closing)
    | _ => none

/-- The text after this many closing brackets, each of which an error has asked for. -/
def closeTimes? : Nat → String → Option String
  | 0, text => some text
  | n + 1, text => (closeLast? text).bind (closeTimes? n)

theorem closeLast?_of_parse {opening closing : Char} {span : Span}
    (h : Pattern.parse text = .error e) (hcause : e.cause = .unclosed opening closing span) :
    closeLast? text = some (text.push closing) := by
  rw [closeLast?, h]
  dsimp only
  rw [hcause]

/-- Closing brackets as the errors ask for it takes a step for each of the brackets `opened`, and no
text is a pattern before the last one is closed. -/
structure ClosedBy (text : String) (opened : List Bracket) : Prop where
  reaches : ∃ t, closeTimes? opened.length text = some t
  closings : ∀ n t, closeTimes? n text = some t →
    t.toList = text.toList ++ (opened.take n).map Bracket.closing
  accepted_iff : ∀ n t, closeTimes? n text = some t →
    ((∃ p, Pattern.parse t = .ok p) ↔ n = opened.length)

theorem closedBy_of_parse {p : Pattern} (h : Pattern.parse text = .ok p) : ClosedBy text [] := by
  have hnone : closeLast? text = none := by rw [closeLast?, h]
  have hstay (n : Nat) (t : String) (ht : closeTimes? n text = some t) : n = 0 ∧ text = t := by
    cases n with
    | zero => exact ⟨rfl, Option.some.inj ht⟩
    | succ n =>
      rw [closeTimes?, hnone] at ht
      cases ht
  refine ⟨⟨text, rfl⟩, fun n t ht => ?_, fun n t ht => ?_⟩
  · obtain ⟨rfl, rfl⟩ := hstay n t ht
    simp
  · obtain ⟨rfl, rfl⟩ := hstay n t ht
    exact ⟨fun _ => rfl, fun _ => ⟨p, h⟩⟩

/-- One step closes the last bracket. -/
theorem ClosedBy.cons {opened : List Bracket} {span : Span} {opening : Char}
    (h : Pattern.parse text = .error e) (hcause : e.cause = .unclosed opening b.closing span)
    (hnext : ClosedBy (text.push b.closing) opened) : ClosedBy text (b :: opened) := by
  have hstep (n : Nat) : closeTimes? (n + 1) text = closeTimes? n (text.push b.closing) := by
    rw [closeTimes?, closeLast?_of_parse h hcause]
    rfl
  refine ⟨?_, fun n t ht => ?_, fun n t ht => ?_⟩
  · rw [List.length_cons, hstep]
    exact hnext.reaches
  · cases n with
    | zero =>
      obtain rfl := Option.some.inj ht
      simp
    | succ n =>
      rw [hstep] at ht
      rw [hnext.closings n t ht, String.toList_push]
      simp
  · cases n with
    | zero =>
      obtain rfl := Option.some.inj ht
      simp [h]
    | succ n =>
      rw [hstep] at ht
      rw [hnext.accepted_iff n t ht, List.length_cons, Nat.add_right_cancel_iff]

/-- Closing the brackets that are open, from the last one on, mends a text that breaks off. -/
theorem closedBy_of_breaksOff {opened : List Bracket} (h : BreaksOff text.toList outer b)
    (hopen : LeavesOpen text.toList opened) : ClosedBy text opened := by
  induction opened generalizing text outer b with
  | nil =>
    obtain ⟨opened, hopen'⟩ := h.leavesOpen
    cases hopen.unique hopen'
  | cons b' opened ih =>
    obtain ⟨opened', hopen'⟩ := h.leavesOpen
    obtain ⟨rfl, rfl⟩ := List.cons.inj (hopen.unique hopen')
    obtain ⟨e, span, herror, hcause, -⟩ := parse_of_breaksOff h
    have hpush : (text.push b'.closing).toList = text.toList ++ [b'.closing] := String.toList_push _
    have hopened : LeavesOpen (text.push b'.closing).toList opened :=
      hpush ▸ hopen.append (run_closing b' opened)
    refine .cons herror hcause ?_
    rcases h.close with ⟨p, hp⟩ | ⟨outer', b'', hbreaks, -⟩
    · obtain rfl := hopened.unique (hpush ▸ leavesOpen_of_spelledBy hp)
      exact closedBy_of_parse (parse_of_spelledBy (hpush ▸ hp))
    · exact ih (hpush ▸ hbreaks) hopened

/-- **The hint of an unclosed bracket mends the text.** With the bracket that it names at the end of
the text, the text is a pattern or is refused for an unclosed bracket further to the left. So it is
a pattern after one such step for each bracket that was open, and not before. -/
theorem unclosed_hint_repairs (text : String) (e : ParseError) (opening closing : Char)
    (span : Span) (hlen : byteLength text.toList ≤ Span.maxOffset)
    (h : Pattern.parse text = .error e) (hcause : e.cause = .unclosed opening closing span) :
    e.help = ["add `" ++ closing.toString ++ "`"] ∧
      ((∃ p, Pattern.parse (text.push closing) = .ok p) ∨
        ∃ e' opening' closing' span', Pattern.parse (text.push closing) = .error e' ∧
          e'.cause = .unclosed opening' closing' span' ∧ span'.start < span.start) ∧
      ∃ opened, LeavesOpen text.toList opened ∧ ClosedBy text opened := by
  obtain ⟨outer, b, hbreaks, rfl, rfl, hstart⟩ := breaksOff_of_parse h hcause
  have hpush : (text.push b.closing).toList = text.toList ++ [b.closing] := String.toList_push _
  refine ⟨?_, ?_, ?_⟩
  · rw [help_of_parse h, hcause]
    rfl
  · rcases hbreaks.close with ⟨p, hp⟩ | ⟨outer', b', hbreaks', hlt⟩
    · exact .inl ⟨p, parse_of_spelledBy (hpush ▸ hp)⟩
    · obtain ⟨e', span', herror, hcause', hstart'⟩ := parse_of_breaksOff (hpush ▸ hbreaks')
      refine .inr ⟨e', _, _, span', herror, hcause', ?_⟩
      have hle : byteLength outer ≤ Span.maxOffset := by
        obtain ⟨u, s, t, -, -, rfl, htext⟩ := hbreaks
        rw [htext] at hlen
        simp only [byteLength_append] at hlen ⊢
        omega
      rw [hstart, hstart', UInt32.lt_iff_toNat_lt, Span.toNat_bound_of_le hle,
        Span.toNat_bound_of_le (by omega)]
      exact hlt
  · obtain ⟨opened, hopen⟩ := hbreaks.leavesOpen
    exact ⟨_, hopen, closedBy_of_breaksOff hbreaks hopen⟩

/-- A bracket in a string literal is not counted. -/
theorem unclosed_hint_repairs_of_nested :
    byteLength "\x7bk: A([x, ']'".toList ≤ Span.maxOffset ∧
      ∃ e, Pattern.parse "\x7bk: A([x, ']'" = .error e ∧ e.cause = .unclosed '[' ']' ⟨6, 7⟩ ∧
        e.help = ["add `]`"] ∧ ClosedBy "\x7bk: A([x, ']'" [.square, .round, .curly] := by
  have hlen : byteLength "\x7bk: A([x, ']'".toList ≤ Span.maxOffset := by decide
  have hopen : LeavesOpen "\x7bk: A([x, ']'".toList [.square, .round, .curly] := rfl
  obtain ⟨e, he, hcause⟩ : ∃ e, Pattern.parse "\x7bk: A([x, ']'" = .error e ∧
      e.cause = .unclosed '[' ']' ⟨6, 7⟩ := parseCause?_eq_some.1 (by decide +kernel)
  obtain ⟨hhelp, -, opened, hopened, hclosed⟩ := unclosed_hint_repairs _ e _ _ _ hlen he hcause
  obtain rfl := hopened.unique hopen
  exact ⟨hlen, e, he, hcause, hhelp, hclosed⟩

end Destructure
