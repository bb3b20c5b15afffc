import Destructure.Proofs.Parsing.ViablePrefix

/-!
# Destructure.Proofs.Parsing.Unclosed

Texts that break off inside of brackets. `Pending` is what the grammar says of them, and the parser
says the same: it refuses such a text for the last bracket that is open (`failsOpen_of_pending`),
and what it refuses for an unclosed bracket is such a text (`Fault.pending`).

Design points:

* `Pending` is `Fault` without the parser: the parts that have been entered, and brackets with
  complete contents at the end. So it can be closed (`Pending.close`) and its brackets can be
  counted (`Pending.run`) by induction on how the parts were entered.
* `Step.FailsOpen` says of a step that it fails for a bracket, and where that one is. Each
  production has one lemma about it.
* A list fails for what comes after its last separator, whatever that is. This is one induction
  (`failsAfter_of_slotsBefore`), and serves both an element that breaks off and the list itself.
-/

namespace Destructure

open Text

open Cursor (Between)

open ParseError (Cause)

variable {α : Type} {c d f : Cursor} {e : ParseError}

/-! ### What is left open -/

/-- `Pending q outer b t`: a part `q` breaks off. The last bracket that is open in it is a `b`, with
`outer` before it and `t` in it. -/
inductive Pending : Part → List Char → Bracket → List Char → Prop where
  | here {b : Bracket} {t : List Char} : b.Contents t → Pending (.bracket b) [] b t
  | inside {q r : Part} {s outer : List Char} {b : Bracket} {t : List Char} :
      Enters q s r → Pending r outer b t → Pending q (s ++ outer) b t

/-- The error is that the bracket `b` after `outer`, seen from `c`, is not closed. -/
def ParseError.Unclosed (e : ParseError) (c : Cursor) (outer : List Char) (b : Bracket) : Prop :=
  ∃ d, Between c outer d ∧ e.cause = .unclosed b.opening b.closing d.currentSpan

/-- The step fails for the bracket `b` after `outer`. -/
def Step.FailsOpen (s : Step α c) (outer : List Char) (b : Bracket) : Prop :=
  ∃ e f, s.Fails e f ∧ e.Unclosed c outer b

theorem ParseError.Unclosed.since {w outer : List Char} {b : Bracket} (h : e.Unclosed d outer b)
    (hcd : Between c w d) : e.Unclosed c (w ++ outer) b := by
  obtain ⟨g, hdg, hcause⟩ := h
  exact ⟨g, hcd.trans hdg, hcause⟩

/-- A part that fails for an unclosed bracket breaks off in that bracket. -/
theorem Fault.pending {q : Part} {opening closing : Char} {span : Span} (h : Fault q c e d)
    (hcause : e.cause = .unclosed opening closing span) :
    ∃ outer b t, Pending q outer b t ∧ c.ahead = outer ++ b.opening :: t ∧
      e.Unclosed c outer b := by
  induction h with
  | here hflaw =>
    cases hflaw with
    | @unclosed b _ _ t ht hcd hend =>
      refine ⟨[], b, t, .here ht, ?_, _, .refl _, rfl⟩
      rw [hcd.ahead, hend, List.append_nil]
      rfl
    | stray _ _ _ hfound =>
      cases (Cause.isEnd_of_found hfound).symm.trans (congrArg Cause.isEnd hcause)
    | token _ hrefused =>
      cases (Cause.of_refused hrefused).2.symm.trans (congrArg Cause.isEnd hcause)
    | ends => cases hcause
    | unterminated => cases hcause
  | inside henters hcf _ ih =>
    obtain ⟨outer, b, t, hpending, hahead, herror⟩ := ih hcause
    refine ⟨_, b, t, .inside henters hpending, ?_, herror.since hcf⟩
    rw [hcf.ahead, hahead, List.append_assoc]

/-- Of the brackets that are open, `b` is the last one. -/
theorem Pending.run {q : Part} {outer t : List Char} {b : Bracket} (h : Pending q outer b t)
    (opened : List Bracket) : ∃ opened',
      BracketScan.run ⟨opened, .outside⟩ (outer ++ b.opening :: t) =
        some ⟨b :: opened', .outside⟩ := by
  induction h generalizing opened with
  | @here b t ht =>
    refine ⟨opened, ?_⟩
    rw [List.nil_append, run_opening]
    exact neutral_of_contents ht _
  | inside henters _ ih =>
    obtain ⟨opened₁, hrun₁⟩ := outside_of_enters henters opened
    obtain ⟨opened₂, hrun₂⟩ := ih opened₁
    refine ⟨opened₂, ?_⟩
    rw [List.append_assoc, BracketScan.run_append, hrun₁]
    exact hrun₂

/-! ### Closing it -/

/-- With the last open bracket closed the part is complete, or a bracket further out is the last one
that is open. -/
theorem Pending.close {q : Part} {outer t : List Char} {b : Bracket} (h : Pending q outer b t) :
    Spells q (outer ++ b.opening :: (t ++ [b.closing])) ∨
      ∃ outer' b' t' mid, Pending q outer' b' t' ∧ mid ≠ [] ∧ outer = outer' ++ mid ∧
        outer ++ b.opening :: (t ++ [b.closing]) = outer' ++ b'.opening :: t' := by
  induction h with
  | here ht => exact .inl ⟨_, ht, rfl⟩
  | @inside q r s outer b t henters _ ih =>
    rcases ih with hspells | ⟨outer', b', t', mid, hpending, hmid, houter, htext⟩
    · rcases spells_or_contents_of_enters henters hspells with hspells | ⟨b', t', rfl, ht', htext⟩
      · exact .inl (by simpa using hspells)
      · have hne : s ≠ [] := by cases henters <;> exact List.cons_ne_nil _ _
        refine .inr ⟨[], b', t', s ++ outer, .here ht', by simp [hne], rfl, ?_⟩
        rw [List.append_assoc, htext]
        rfl
    · refine .inr ⟨s ++ outer', b', t', mid, .inside henters hpending, hmid, ?_, ?_⟩
      · rw [houter, List.append_assoc]
      · rw [List.append_assoc, htext, List.append_assoc]

/-! ### Lists that break off -/

/-- The slots of a list are those before its last separator, and at most one more. -/
theorem SlotTexts.exists_before {s : Series} {R : α → List Char → Prop} {slots : List (Option α)}
    {t : List Char} (h : SlotTexts s R slots t) :
    ∃ t' r, SlotsBefore s R t' ∧ t = t' ++ r ∧
      (r = [] ∨ ∃ a x w, R a x ∧ Spaces w ∧ r = x ++ w) := by
  induction h with
  | nil hu => exact ⟨_, [], .nil hu, (List.append_nil _).symm, .inl rfl⟩
  | @last a u x w hu hx hw =>
    exact ⟨u, x ++ w, .nil hu, List.append_assoc _ _ _, .inr ⟨a, x, w, hx, hw, rfl⟩⟩
  | blank hb hu _ ih =>
    obtain ⟨t', r, ht', rfl, hlast⟩ := ih
    exact ⟨_, r, .blank hb hu ht', by simp, hlast⟩
  | item hu hx hw _ ih =>
    obtain ⟨t', r, ht', rfl, hlast⟩ := ih
    exact ⟨_, r, .item hu hx hw ht', by simp, hlast⟩

/-- The texts of elements may be told in another way, with white space around them. -/
theorem SlotsBefore.imp {s : Series} {R S : α → List Char → Prop} {t : List Char}
    (hRS : ∀ a x, R a x → ∃ u y w, x = u ++ y ++ w ∧ Spaces u ∧ S a y ∧ Spaces w)
    (h : SlotsBefore s R t) : SlotsBefore s S t := by
  induction h with
  | nil hu => exact .nil hu
  | blank hb hu _ ih => exact .blank hb hu ih
  | item hu hx hw _ ih =>
    obtain ⟨u', y, w', rfl, hu', hy, hw'⟩ := hRS _ _ hx
    have hitem := SlotsBefore.item (hu.append hu') hy (hw'.append hw) ih
    simpa using hitem

/-- The series stands between these brackets, and its separator and its terminator end elements. -/
structure Series.Fits (s : Series) (b : Bracket) : Prop where
  opening : s.opening = b.opening
  terminator : s.terminator = b.closing
  separator_ne_terminator : s.separator ≠ s.terminator
  isDelimiter_separator : IsDelimiter s.separator
  isDelimiter_terminator : IsDelimiter s.terminator

theorem Series.fits_array : Series.array.Fits .square :=
  ⟨rfl, rfl, by decide, .inl rfl, .inr (.inl rfl)⟩

theorem Series.fits_object : Series.object.Fits .curly :=
  ⟨rfl, rfl, by decide, .inl rfl, .inr (.inr (.inl rfl))⟩

/-- The list from `d` on has `t` before `x`, and whatever it fails for after the last separator of
`t`, it fails for as a whole. -/
def FailsAfter (s : Series) (span : Span) (element : (c : Cursor) → Step α c) (t x : List Char)
    (d : Cursor) (hd : c ≤ d) : Prop :=
  ∃ t' u g, ∃ hg : c ≤ g, t = t' ++ u ∧ Spaces u ∧ Between d t' g ∧ g.ahead = u ++ x ∧
    ∀ e f, (parseSlots s span (fun d (_ : c ≤ d) => element d) g hg).Fails e f →
      (parseSlots s span (fun d (_ : c ≤ d) => element d) d hd).Fails e f

section

variable {s : Series} {span : Span} {element : (c : Cursor) → Step α c} {x : List Char}

/-- One more slot in front, with its separator. -/
theorem FailsAfter.cons {g : Cursor} {hd : c ≤ d} {slot : Option α} {y : Char} {w t : List Char}
    (hne : s.separator ≠ s.terminator) (hy : d.skipSpace.current = some y) (hyt : y ≠ s.terminator)
    (hslot : (parseSlot s y d.skipSpace (c.le_trans hd d.le_skipSpace) fun d _ => element d).Finds
      slot g)
    (hg : Between d w g.skipSpace) (hsep : g.skipSpace.current = some s.separator)
    (h : c ≤ g.skipSpace.advance) (ht : FailsAfter s span element t x g.skipSpace.advance h) :
    FailsAfter s span element (w ++ s.separator :: t) x d hd := by
  obtain ⟨t', u, f, hf, rfl, hu, hgf, hahead, hfails⟩ := ht
  have hdf : Between d (w ++ s.separator :: t') f := by
    simpa using (hg.trans (.advance hsep)).trans hgf
  refine ⟨_, u, f, hf, by simp, hu, hdf, hahead, ?_⟩
  intro e h hfail
  exact fails_parseSlots.2 (.inr ⟨y, _, hy, hyt, .inr ⟨slot, g, hslot, .inr
    ⟨s.separator, hsep, hne, .inr ⟨_, rfl, hfails e h hfail⟩⟩⟩⟩)

theorem failsAfter_of_slotsBefore (span) {b : Bracket} (hs : s.Fits b) {t : List Char}
    (h : SlotsBefore s (fun a x => Starts x ∧ Fills element a x) t) (hd : c ≤ d)
    (ht : d.ahead = t ++ x) : FailsAfter s span element t x d hd := by
  obtain ⟨-, -, hne, hsep, hterm⟩ := hs
  have hle {d : Cursor} (hd : c ≤ d) : c ≤ d.skipSpace := c.le_trans hd d.le_skipSpace
  induction h generalizing d with
  | @nil u hu => exact ⟨[], u, d, hd, rfl, hu, .refl d, ht, fun _ _ => id⟩
  | @blank u t hb hu _ ih =>
    have hstart : d.skipSpace.ahead = s.separator :: (t ++ x) :=
      Cursor.ahead_skipSpace hu hsep.not_isSpace (by rw [ht]; simp)
    obtain ⟨hcur, hadv⟩ := Cursor.current_of_ahead hstart
    -- An empty slot takes no characters, so the separator after it is the one that was seen.
    have hstay := d.skipSpace_skipSpace
    have hslot : (parseSlot s s.separator d.skipSpace (hle hd) fun d _ => element d).Finds none
        d.skipSpace := finds_parseSlot.2 (.inl ⟨rfl, hb, rfl, rfl⟩)
    have hbetween : Between d u d.skipSpace.skipSpace :=
      ⟨d.le_trans d.le_skipSpace d.skipSpace.le_skipSpace, by rw [hstay, hstart, ht]; simp⟩
    exact .cons hne hcur hne hslot hbetween (by rw [hstay, hcur]) _
      (ih (Cursor.le_advance_of_le (hle (hle hd))) (by rw [hstay, hadv]))
  | @item a u y w t hu hy hw _ ih =>
    have hd' : d.ahead = u ++ y ++ w ++ s.separator :: (t ++ x) := by
      rw [ht]
      simp
    obtain ⟨z, g, hcur, hz, hg, hrest⟩ := finds_element hu hy hw hsep hd'
    obtain ⟨hcur', hadv⟩ := Cursor.current_of_ahead hrest
    have hslot : (parseSlot s z d.skipSpace (hle hd) fun d _ => element d).Finds (some a) g :=
      finds_parseSlot.2 (.inr ⟨fun h => hz (h ▸ hsep), a, hg, rfl⟩)
    have hdg : d ≤ g.skipSpace := d.le_trans (d.le_trans d.le_skipSpace hg.le) g.le_skipSpace
    exact .cons hne hcur (fun h => hz (h ▸ hterm)) hslot ⟨hdg, by rw [hd', hrest]⟩ hcur' _
      (ih (Cursor.le_advance_of_le (c.le_trans hd hdg)) hadv)

/-- A list fails for an element of it that fails. -/
theorem failsOpen_parseSlots_of_element {b b' : Bracket} (hs : s.Fits b) {t outer : List Char}
    (h : SlotsBefore s (fun a x => Starts x ∧ Fills element a x) t) (hx : Starts x)
    (hopen : ∀ d : Cursor, d.ahead = x → (element d).FailsOpen outer b')
    (hc : c.ahead = b.opening :: (t ++ x)) :
    ((parseSlots s c.currentSpan (fun d (_ : c.advance ≤ d) => element d) c.advance
      c.advance.le_refl).since c.le_advance).FailsOpen (b.opening :: t ++ outer) b' := by
  obtain ⟨hcur, hadv⟩ := Cursor.current_of_ahead hc
  obtain ⟨t', u, g, hg, rfl, hu, hdg, hahead, hfails⟩ :=
    failsAfter_of_slotsBefore c.currentSpan hs h c.advance.le_refl hadv
  obtain ⟨-, -, hne, hsep, hterm⟩ := hs
  obtain ⟨z, v, rfl, hz, hzd⟩ := hx
  have hstart := Cursor.ahead_skipSpace hu hz hahead
  obtain ⟨e, f, hfail, herror⟩ := hopen g.skipSpace hstart
  have hslot : (parseSlot s z g.skipSpace (c.advance.le_trans hg g.le_skipSpace)
      fun d _ => element d).Fails e f :=
    fails_parseSlot.2 (.inr ⟨fun h => hzd (h ▸ hsep), hfail⟩)
  refine ⟨e, f, ?_, herror.since ((hdg.trans (.of_spaces hu hz hahead)).cons hcur)⟩
  exact hfails e f (fails_parseSlots.2 (.inr ⟨z, _, (Cursor.current_of_ahead hstart).1,
    fun h => hzd (h ▸ hterm), .inl hslot⟩))

/-- A list fails for its own bracket if the text ends after its slots. -/
theorem failsOpen_parseSlots_of_end {b : Bracket} (hs : s.Fits b) {slots : List (Option α)}
    {t : List Char} (h : SlotTexts s (fun a x => Starts x ∧ Fills element a x) slots t)
    (hc : c.ahead = b.opening :: t) :
    ((parseSlots s c.currentSpan (fun d (_ : c.advance ≤ d) => element d) c.advance
      c.advance.le_refl).since c.le_advance).FailsOpen [] b := by
  obtain ⟨-, hadv⟩ := Cursor.current_of_ahead hc
  suffices ∃ f, (parseSlots s c.currentSpan (fun d (_ : c.advance ≤ d) => element d) c.advance
      c.advance.le_refl).Fails (s.unclosed c.currentSpan f) f by
    obtain ⟨f, hfail⟩ := this
    refine ⟨_, f, hfail, c, .refl c, ?_⟩
    rw [← hs.opening, ← hs.terminator]
    rfl
  obtain ⟨t', r, hbefore, rfl, hlast⟩ := h.exists_before
  obtain ⟨_, u, g, hg, -, hu, -, hahead, hfails⟩ :=
    failsAfter_of_slotsBefore c.currentSpan hs hbefore c.advance.le_refl hadv
  rcases hlast with rfl | ⟨a, x, w, hx, hw, rfl⟩
  · have hspaces : Spaces g.ahead := by rwa [hahead, List.append_nil]
    exact ⟨_, hfails _ _ (fails_parseSlots.2
      (.inl ⟨Cursor.ahead_skipSpace_of_spaces hspaces, rfl, rfl⟩))⟩
  · obtain ⟨-, -, hne, hsep, hterm⟩ := hs
    rw [← List.append_assoc] at hahead
    obtain ⟨z, k, hcur, hz, hk, hrest⟩ :=
      finds_element_before hu hx (delimits_of_spaces hw) hahead
    rw [List.dropWhile_eq_nil_iff.2 hw] at hrest
    have hslot : (parseSlot s z g.skipSpace (c.advance.le_trans hg g.le_skipSpace)
        fun d _ => element d).Finds (some a) k :=
      finds_parseSlot.2 (.inr ⟨fun h => hz (h ▸ hsep), a, hk, rfl⟩)
    exact ⟨_, hfails _ _ (fails_parseSlots.2 (.inr ⟨z, _, hcur, fun h => hz (h ▸ hterm), .inr
      ⟨some a, k, hslot, .inl ⟨hrest, rfl, rfl⟩⟩⟩))⟩

end

/-! ### Parts that break off -/

variable {outer x : List Char} {b : Bracket}

/-- A pattern fails for a bracket, whichever place with `x` ahead it starts at. -/
def PatternFailsOpen (x outer : List Char) (b : Bracket) : Prop :=
  ∀ c : Cursor, c.ahead = x → (parseKind c (later c)).FailsOpen outer b

/-- White space before a pattern is passed over before it fails. -/
theorem failsOpen_parsePattern {u : List Char} (hu : Spaces u) (hx : Starts x)
    (hopen : PatternFailsOpen x outer b) (hc : c.ahead = u ++ x) :
    (parsePattern c).FailsOpen (u ++ outer) b := by
  obtain ⟨z, v, rfl, hz, -⟩ := hx
  obtain ⟨e, f, hfail, herror⟩ := hopen c.skipSpace (Cursor.ahead_skipSpace hu hz hc)
  exact ⟨_, f, fails_parsePattern.2 ⟨e, hfail, rfl⟩, herror.since (.of_spaces hu hz hc)⟩

theorem failsOpen_parseElements {h : c < c.advance}
    (hslots : ((parseSlots .array c.currentSpan (fun d (_ : c.advance ≤ d) => parsePattern d)
      c.advance c.advance.le_refl).since c.le_advance).FailsOpen outer b) :
    (parseElements c h (later c)).FailsOpen outer b := by
  obtain ⟨e, f, hfail, herror⟩ := hslots
  refine ⟨e, f, ?_, herror⟩
  simp only [parseElements, parseSeries, Step.fails_since, Step.fails_map]
  exact hfail

theorem failsOpen_parseEntries {h : c < c.advance}
    (hslots : ((parseSlots .object c.currentSpan
      (fun d (_ : c.advance ≤ d) => parseEntry d (later d)) c.advance
      c.advance.le_refl).since c.le_advance).FailsOpen outer b) :
    (parseEntries c h (later c)).FailsOpen outer b := by
  obtain ⟨e, f, hfail, herror⟩ := hslots
  refine ⟨e, f, ?_, herror⟩
  simp only [parseEntries, parseSeries, Step.fails_since, Step.fails_map]
  exact hfail

theorem failsOpen_parseElements_of_end {ps : List Pattern} {t : List Char}
    (ht : Derives (.slots ps) t) (hc : c.ahead = '[' :: t) (h : c < c.advance) :
    (parseElements c h (later c)).FailsOpen [] .square := by
  obtain ⟨slots, hslots, -⟩ := reads_of_derives ht
  exact failsOpen_parseElements (failsOpen_parseSlots_of_end Series.fits_array hslots hc)

theorem failsOpen_parseEntries_of_end {es : List Entry} {t : List Char}
    (ht : Derives (.entries es) t) (hc : c.ahead = '\x7b' :: t) (h : c < c.advance) :
    (parseEntries c h (later c)).FailsOpen [] .curly := by
  obtain ⟨slots, hslots, -⟩ := reads_of_derives ht
  exact failsOpen_parseEntries (failsOpen_parseSlots_of_end Series.fits_object hslots hc)

theorem failsOpen_parseElements_of_pattern {t : List Char}
    (ht : SlotsBefore .array Pattern.SpelledBy t) (hx : Starts x)
    (hopen : PatternFailsOpen x outer b) (hc : c.ahead = '[' :: (t ++ x)) (h : c < c.advance) :
    (parseElements c h (later c)).FailsOpen ('[' :: t ++ outer) b := by
  have hslots : SlotsBefore .array (fun p s => Starts s ∧ Fills parsePattern p s) t := by
    refine ht.imp fun p y hy => ?_
    obtain ⟨u, s, w, rfl, hu, hs, hw⟩ := hy
    have hstart := starts_of_derives_pattern hs
    exact ⟨u, s, w, rfl, hu, ⟨hstart, fills_parsePattern hstart (reads_of_derives hs)⟩, hw⟩
  exact failsOpen_parseElements (failsOpen_parseSlots_of_element Series.fits_array hslots hx
    (fun _ hd => failsOpen_parsePattern spaces_nil hx hopen hd) hc)

theorem failsOpen_parseEntries_of_entry {t : List Char}
    (ht : SlotsBefore .object Entry.SpelledBy t) (hx : Starts x)
    (hopen : ∀ d : Cursor, d.ahead = x → (parseEntry d (later d)).FailsOpen outer b)
    (hc : c.ahead = '\x7b' :: (t ++ x)) (h : c < c.advance) :
    (parseEntries c h (later c)).FailsOpen ('\x7b' :: t ++ outer) b := by
  have hslots : SlotsBefore .object
      (fun e s => Starts s ∧ Fills (fun c => parseEntry c (later c)) e s) t := by
    refine ht.imp fun e y hy => ?_
    obtain ⟨s, w, rfl, hs, hw⟩ := hy
    exact ⟨[], s, w, rfl, spaces_nil, ⟨starts_of_derives_entry hs, reads_of_derives hs⟩, hw⟩
  exact failsOpen_parseEntries
    (failsOpen_parseSlots_of_element Series.fits_object hslots hx hopen hc)

theorem failsOpen_parseEntry {key : String} {u v : List Char} (hkey : isWord key = true)
    (hany : key ≠ "_") (hu : Spaces u) (hv : Spaces v) (hx : Starts x)
    (hopen : PatternFailsOpen x outer b) (hc : c.ahead = key.toList ++ u ++ ':' :: v ++ x) :
    (parseEntry c (later c)).FailsOpen (key.toList ++ u ++ ':' :: v ++ outer) b := by
  have hc' : c.ahead = key.toList ++ (u ++ ':' :: (v ++ x)) := by
    rw [hc]
    simp
  obtain ⟨d, hd, hrest⟩ := parseWord_of_isWord hkey hc' (breaks_spaces hu (by decide) _)
  have hcolon := Cursor.ahead_skipSpace hu (by decide) hrest
  obtain ⟨hcur, hadv⟩ := Cursor.current_of_ahead hcolon
  obtain ⟨e, f, hfail, herror⟩ := failsOpen_parsePattern hv hx hopen hadv
  have hbetween : Between c (key.toList ++ u ++ [':']) d.skipSpace.advance :=
    ((Between.of_parseWord hd).trans (.of_spaces hu (by decide) hrest)).trans (.advance hcur)
  refine ⟨e, f, ?_, by simpa using herror.since hbetween⟩
  simp only [parseEntry, Step.fails_bind, Step.fails_within, Step.finds_within]
  refine .inr ⟨key, d, hd.le, hd, ?_⟩
  simp only [hcur, dite_true, hany, if_false, Step.fails_since, Step.fails_map]
  exact hfail

/-- What stands after the parenthesis at `c`, which starts the text `x`, fails for a bracket. -/
def ParenthesisFailsOpen (x outer : List Char) (b : Bracket) : Prop :=
  ∀ (c f : Cursor) (name : String), c.ahead = x → c.advance.skipSpace = f →
    ∃ e g, ((parseArguments f (later f)).bind fun as g _ =>
      parseClosing name c.currentSpan as g).Fails e g ∧ e.Unclosed c outer b

theorem finds_parseArguments_of_end {as : Arguments} {s w : List Char}
    (h : Derives (.arguments as) s) (hw : Spaces w) (hc : c.ahead = (s ++ w).dropWhile isSpace) :
    ∃ g, (parseArguments c (later c)).Finds as g ∧ g.skipSpace.ahead = [] := by
  have hskip {g : Cursor} (hg : g.ahead = w) : g.skipSpace.ahead = [] :=
    Cursor.ahead_skipSpace_of_spaces (hg ▸ hw)
  cases h with
  | unspecified =>
    rw [List.nil_append, List.dropWhile_eq_nil_iff.2 hw] at hc
    refine ⟨c, ?_, congrArg (List.dropWhile isSpace) hc⟩
    rw [parseArguments, dif_neg (by simp [Cursor.current, hc]),
      dif_neg (by simp [Cursor.current, hc])]
    exact (Step.finds_done _).2 ⟨rfl, rfl⟩
  | @positional ps t hps =>
    have hc' : c.ahead = '[' :: (t ++ ']' :: w) := by
      rw [hc, List.cons_append, dropWhile_of_not_isSpace (by decide)]
      simp
    have hcur := (Cursor.current_of_ahead hc').1
    obtain ⟨g, hg, hrest⟩ :=
      parseElements_of_reads (reads_of_derives hps) hc' (Cursor.lt_advance hcur)
    refine ⟨g, ?_, hskip hrest⟩
    rw [parseArguments, dif_pos hcur]
    exact Step.finds_map.2 ⟨ps, hg, rfl⟩
  | @keyed es t hes =>
    have hc' : c.ahead = '\x7b' :: (t ++ '\x7d' :: w) := by
      rw [hc, List.cons_append, dropWhile_of_not_isSpace (by decide)]
      simp
    have hcur := (Cursor.current_of_ahead hc').1
    obtain ⟨g, hg, hrest⟩ :=
      parseEntries_of_reads (reads_of_derives hes) hc' (Cursor.lt_advance hcur)
    refine ⟨g, ?_, hskip hrest⟩
    rw [parseArguments, dif_neg (by rw [hcur]; decide), dif_pos hcur]
    exact Step.finds_map.2 ⟨es, hg, rfl⟩

theorem parenthesisFailsOpen_of_end {t : List Char} (ht : Bracket.round.Contents t) :
    ParenthesisFailsOpen ('(' :: t) [] .round := by
  rintro c _ name hc rfl
  obtain ⟨as, v, s, w, rfl, hv, has, hw⟩ := ht
  have hahead : c.advance.skipSpace.ahead = (s ++ w).dropWhile isSpace := by
    show c.advance.ahead.dropWhile isSpace = _
    rw [(Cursor.current_of_ahead hc).2, List.append_assoc, dropWhile_spaces hv]
  obtain ⟨g, hg, hend⟩ := finds_parseArguments_of_end has hw hahead
  have hnone : g.skipSpace.current = none := List.head?_eq_none_iff.2 hend
  have hclosing : (parseClosing name c.currentSpan as g).Fails
      ((ParseError.here (.unclosed '(' ')' c.currentSpan) g.skipSpace).within .tagged)
      g.skipSpace := by
    unfold parseClosing
    dsimp only
    rw [hnone]
    exact (Step.fails_fail _).2 ⟨rfl, rfl⟩
  exact ⟨_, _, Step.fails_bind.2 (.inr ⟨as, g, hg.le, hg, hclosing⟩), c, .refl c, rfl⟩

theorem parenthesisFailsOpen_of_arguments {z : Char} {v r : List Char} (hv : Spaces v)
    (hz : isSpace z = false)
    (hopen : ∀ f : Cursor, f.ahead = z :: r → (parseArguments f (later f)).FailsOpen outer b) :
    ParenthesisFailsOpen ('(' :: v ++ z :: r) ('(' :: v ++ outer) b := by
  rintro c _ name hc rfl
  obtain ⟨hcur, hadv⟩ := Cursor.current_of_ahead hc
  have hahead := Cursor.ahead_skipSpace hv hz hadv
  have hspaces : Between c.advance v c.advance.skipSpace := .of_spaces hv hz hadv
  obtain ⟨e, g, hfail, herror⟩ := hopen _ hahead
  exact ⟨e, g, Step.fails_bind.2 (.inl hfail), herror.since (hspaces.cons hcur)⟩

theorem patternFailsOpen_of_parenthesis {name : String} {u r : List Char} (hname : IsName name)
    (hu : Spaces u) (hopen : ParenthesisFailsOpen ('(' :: r) outer b) :
    PatternFailsOpen (name.toList ++ u ++ '(' :: r) (name.toList ++ u ++ outer) b := by
  intro c hc
  rw [List.append_assoc] at hc
  obtain ⟨d, hd, hrest⟩ := parseWord_of_isWord hname.1 hc (breaks_spaces hu (by decide) _)
  have hahead := Cursor.ahead_skipSpace hu (by decide) hrest
  have hcur := (Cursor.current_of_ahead hahead).1
  obtain ⟨e, g, hfail, herror⟩ := hopen d.skipSpace _ name hahead rfl
  have hbetween : Between c (name.toList ++ u) d.skipSpace :=
    (Between.of_parseWord hd).trans (.of_spaces hu (by decide) hrest)
  refine ⟨e, g, ?_, herror.since hbetween⟩
  rw [parseKind_of_word hname.1 hc]
  simp only [parseTagged, Step.fails_bind]
  refine .inr ⟨name, d, hd.le, hd, ?_⟩
  simp only [hcur, dite_true, hname.2, Bool.false_eq_true, if_false, Step.fails_since,
    Step.fails_after]
  exact hfail

/-- A part fails for the bracket `b` after `outer` when the text ends after `x`. -/
def Part.FailsOpen (x outer : List Char) (b : Bracket) : Part → Prop
  | .pattern => PatternFailsOpen x outer b
  | .entry => ∀ c : Cursor, c.ahead = x → (parseEntry c (later c)).FailsOpen outer b
  | .bracket .square => ∀ (c : Cursor) (h : c < c.advance), c.ahead = x →
      (parseElements c h (later c)).FailsOpen outer b
  | .bracket .curly => ∀ (c : Cursor) (h : c < c.advance), c.ahead = x →
      (parseEntries c h (later c)).FailsOpen outer b
  | .bracket .round => ParenthesisFailsOpen x outer b

theorem Step.failsOpen_map {β : Type} {s : Step α c} {g : α → β} :
    (s.map g).FailsOpen outer b ↔ s.FailsOpen outer b := by
  simp [Step.FailsOpen]

theorem Pending.cons_of_bracket {t : List Char} {b' : Bracket}
    (h : Pending (.bracket b') outer b t) : ∃ r, outer ++ b.opening :: t = b'.opening :: r := by
  cases h with
  | here => exact ⟨_, rfl⟩
  | inside henters => cases henters <;> exact ⟨_, rfl⟩

/-- A pattern that breaks off starts as patterns do. -/
theorem Pending.starts_of_pattern {t : List Char} (h : Pending .pattern outer b t) :
    Starts (outer ++ b.opening :: t) := by
  cases h with
  | inside henters hpending =>
    cases henters with
    | array =>
      obtain ⟨r, hr⟩ := hpending.cons_of_bracket
      exact ⟨_, r, hr, by decide, by simp [IsDelimiter]⟩
    | object =>
      obtain ⟨r, hr⟩ := hpending.cons_of_bracket
      exact ⟨_, r, hr, by decide, by simp [IsDelimiter]⟩
    | tagged hname =>
      rw [List.append_assoc, List.append_assoc]
      exact starts_of_isWord hname.1 _

theorem Pending.starts_of_entry {t : List Char} (h : Pending .entry outer b t) :
    Starts (outer ++ b.opening :: t) := by
  cases h with
  | inside henters =>
    cases henters with
    | value hkey =>
      rw [List.append_assoc, List.append_assoc, List.append_assoc]
      exact starts_of_isWord hkey _

/-- What breaks off in a bracket fails for that bracket. -/
theorem failsOpen_of_pending {q : Part} {t : List Char} (h : Pending q outer b t) :
    q.FailsOpen (outer ++ b.opening :: t) outer b := by
  induction h with
  | @here b t ht =>
    cases b with
    | square =>
      obtain ⟨ps, hps⟩ := ht
      exact fun c h hc => failsOpen_parseElements_of_end hps hc h
    | curly =>
      obtain ⟨es, hes⟩ := ht
      exact fun c h hc => failsOpen_parseEntries_of_end hes hc h
    | round => exact parenthesisFailsOpen_of_end ht
  | @inside q r s outer b t henters hpending ih =>
    cases henters with
    | array =>
      intro c hc
      obtain ⟨_, hr⟩ := hpending.cons_of_bracket
      have hcur : c.current = some '[' := (Cursor.current_of_ahead (hc.trans hr)).1
      rw [parseKind_eq hcur, if_pos rfl]
      exact Step.failsOpen_map.2 (ih c _ hc)
    | object =>
      intro c hc
      obtain ⟨_, hr⟩ := hpending.cons_of_bracket
      have hcur : c.current = some '\x7b' := (Cursor.current_of_ahead (hc.trans hr)).1
      rw [parseKind_eq hcur, if_neg (by decide), if_pos rfl]
      exact Step.failsOpen_map.2 (ih c _ hc)
    | tagged hname hu =>
      obtain ⟨_, hr⟩ := hpending.cons_of_bracket
      rw [List.append_assoc, hr]
      exact patternFailsOpen_of_parenthesis hname hu (hr ▸ ih)
    | positional hv =>
      obtain ⟨_, hr⟩ := hpending.cons_of_bracket
      rw [List.append_assoc, hr]
      refine parenthesisFailsOpen_of_arguments hv (by decide) fun f hf => ?_
      have hcur : f.current = some '[' := (Cursor.current_of_ahead hf).1
      rw [parseArguments, dif_pos hcur]
      exact Step.failsOpen_map.2 (ih f _ (hf.trans hr.symm))
    | keyed hv =>
      obtain ⟨_, hr⟩ := hpending.cons_of_bracket
      rw [List.append_assoc, hr]
      refine parenthesisFailsOpen_of_arguments hv (by decide) fun f hf => ?_
      have hcur : f.current = some '\x7b' := (Cursor.current_of_ahead hf).1
      rw [parseArguments, dif_neg (by rw [hcur]; decide), dif_pos hcur]
      exact Step.failsOpen_map.2 (ih f _ (hf.trans hr.symm))
    | element hbefore =>
      intro c h hc
      rw [List.append_assoc] at hc
      exact failsOpen_parseElements_of_pattern hbefore hpending.starts_of_pattern ih hc h
    | item hbefore =>
      intro c h hc
      rw [List.append_assoc] at hc
      exact failsOpen_parseEntries_of_entry hbefore hpending.starts_of_entry ih hc h
    | value hkey hany hu hv =>
      intro c hc
      rw [List.append_assoc] at hc
      exact failsOpen_parseEntry hkey hany hu hv hpending.starts_of_pattern ih hc

end Destructure
