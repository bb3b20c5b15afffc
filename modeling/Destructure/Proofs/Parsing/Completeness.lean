import Destructure.Proofs.Parsing.Soundness

/-!
# Destructure.Proofs.Parsing.Completeness

Whatever a text spells, the pattern parser finds, and so `Pattern.parse` accepts the language of
patterns and nothing else: `parse_eq_ok_iff_spelledBy`.

Proof shape:

* The parser never goes back, so each spelling must be recognized by its first character (`Starts`)
  and be left where the next token can go on (`Delimits`). `Fills` is the law of an element parser
  under these conditions.
* `Reads` gives each phrase of the grammar its own law, each rule of the grammar has one lemma
  `reads_…`, and `reads_of_derives` is the induction that puts them together.
* Lists use the texts of their slots from the other direction: `parseSlots_of_slotTexts` is the
  converse of `slotTexts_of_parseSlots`.
-/

namespace Destructure

open Text

variable {α : Type} {c d : Cursor}

/-! ### First characters -/

/-- A pattern, or an entry, starts with a character that neither white space nor the end of what
comes before can be. -/
def Starts (s : List Char) : Prop :=
  ∃ x r, s = x :: r ∧ isSpace x = false ∧ ¬ IsDelimiter x

theorem starts_of_isNumberPart {x : Char} {r : List Char} (h : isNumberPart x = true) :
    Starts (x :: r) := by
  refine ⟨x, r, rfl, not_isSpace_of_isNumberPart h, fun hd => ?_⟩
  exact absurd h (by simp [hd.not_isNumberPart])

theorem starts_of_isWord {w : String} (h : isWord w = true) (r : List Char) :
    Starts (w.toList ++ r) := by
  obtain ⟨x, v, hx, hstart, -⟩ := isWord_cases h
  rw [hx]
  exact starts_of_isNumberPart (isNumberPart_of_isWordPart (isWordPart_of_isWordStart hstart))

theorem isWord_word (k : Constant) : isWord k.word = true := by
  cases k <;> decide

/-- No spelling of a pattern starts with white space or with what could end the text before it. -/
theorem starts_of_derives_pattern {p : Pattern} {s : List Char} (h : Derives (.pattern p) s) :
    Starts s := by
  have hpunct {x : Char} {r : List Char} (hx : x = '[' ∨ x = '\x7b' ∨ x = '\'' ∨ x = '"') :
      Starts (x :: r) := by
    refine ⟨x, r, rfl, ?_, ?_⟩
    · rcases hx with rfl | rfl | rfl | rfl <;> decide
    · unfold IsDelimiter
      rcases hx with rfl | rfl | rfl | rfl <;> decide
  cases h with
  | array => exact hpunct (.inl rfl)
  | object => exact hpunct (.inr (.inl rfl))
  | tagged hname => rw [List.append_assoc]; exact starts_of_isWord hname.1 _
  | binder hname => simpa using starts_of_isWord hname.1 []
  | constant k => simpa using starts_of_isWord (isWord_word k) []
  | wildcard => exact starts_of_isNumberPart (by decide)
  | number hn =>
    obtain ⟨x, r, rfl, hx⟩ := exists_digit_of_numeral hn
    exact starts_of_isNumberPart (isNumberPart_of_isDigit hx)
  | string hquote => exact hpunct (.inr (.inr hquote))

/-- A spelling of an entry starts with its key, so the same holds of it. -/
theorem starts_of_derives_entry {e : Entry} {s : List Char} (h : Derives (.entry e) s) :
    Starts s := by
  cases h with
  | shorthand hkey => simpa using starts_of_isWord hkey.1 []
  | explicit hkey => rw [List.append_assoc]; exact starts_of_isWord hkey _

/-! ### Elements and lists -/

/-- Patterns that are read with `parsePattern`. -/
abbrev later (c : Cursor) : Later c := fun d _ => parsePattern d

/-- Whatever may end a pattern after it, the parser finds `a` in the text `x`. -/
def Fills (element : (c : Cursor) → Step α c) (a : α) (x : List Char) : Prop :=
  ∀ (c : Cursor) (rest : List Char), c.ahead = x ++ rest → Delimits rest →
    ∃ e, (element c).Finds a e ∧ e.skipSpace.ahead = rest.dropWhile isSpace

/-- It does not matter to the pattern parser whether white space has been skipped. -/
theorem finds_parsePattern_skipSpace {p : Pattern} {e : Cursor} :
    (parsePattern c.skipSpace).Finds p e ↔ (parsePattern c).Finds p e := by
  rw [finds_parsePattern, finds_parsePattern, Cursor.skipSpace_skipSpace]

/-- A pattern that is found at its first character is found with the white space around it. -/
theorem fills_parsePattern {p : Pattern} {s : List Char} (hs : Starts s)
    (h : Fills (fun c => parseKind c (later c)) p s) : Fills parsePattern p s := by
  intro c rest hc hr
  obtain ⟨x, r, rfl, hx, -⟩ := hs
  have hskip : c.skipSpace = c :=
    Cursor.skipSpace_eq_self (Cursor.current_eq_some.2 ⟨r ++ rest, hc⟩) hx
  obtain ⟨e, he, hrest⟩ := h c rest hc hr
  refine ⟨e.skipSpace, finds_parsePattern.2 ⟨e, ?_, rfl⟩, ?_⟩
  · rw [hskip]
    exact he
  · rw [Cursor.skipSpace_skipSpace, hrest]

/-- An element is found after white space, and left where what follows it can go on. -/
theorem finds_element_before {element : (c : Cursor) → Step α c} {a : α} {u x rest : List Char}
    (hu : Spaces u) (hx : Starts x ∧ Fills element a x) (hr : Delimits rest)
    (hd : d.ahead = u ++ x ++ rest) :
    ∃ z e, d.skipSpace.current = some z ∧ ¬ IsDelimiter z ∧ (element d.skipSpace).Finds a e ∧
      e.skipSpace.ahead = rest.dropWhile isSpace := by
  obtain ⟨⟨z, v, rfl, hz, hzd⟩, hfill⟩ := hx
  have hstart : d.skipSpace.ahead = z :: v ++ rest :=
    Cursor.ahead_skipSpace hu hz (by rw [hd]; simp)
  obtain ⟨e, he, hrest⟩ := hfill _ _ hstart hr
  exact ⟨z, e, (Cursor.current_of_ahead hstart).1, hzd, he, hrest⟩

/-- An element before a separator or a terminator is found, and left with that character ahead. -/
theorem finds_element {element : (c : Cursor) → Step α c} {a : α} {u x w r : List Char} {y : Char}
    (hu : Spaces u) (hx : Starts x ∧ Fills element a x) (hw : Spaces w) (hy : IsDelimiter y)
    (hd : d.ahead = u ++ x ++ w ++ y :: r) :
    ∃ z e, d.skipSpace.current = some z ∧ ¬ IsDelimiter z ∧ (element d.skipSpace).Finds a e ∧
      e.skipSpace.ahead = y :: r := by
  rw [List.append_assoc] at hd
  obtain ⟨z, e, hcur, hz, he, hrest⟩ := finds_element_before hu hx (delimits_spaces hw hy r) hd
  rw [dropWhile_spaces_cons hw hy.not_isSpace] at hrest
  exact ⟨z, e, hcur, hz, he, hrest⟩

/-- Every text of the slots of a list is read as these slots, up to and past the terminator. -/
theorem parseSlots_of_slotTexts {s : Series} (span : Span) {element : (c : Cursor) → Step α c}
    (hne : s.separator ≠ s.terminator) (hsep : IsDelimiter s.separator)
    (hterm : IsDelimiter s.terminator) {slots : List (Option α)} {t rest : List Char}
    (h : SlotTexts s (fun a x => Starts x ∧ Fills element a x) slots t) (hd : c ≤ d)
    (ht : d.ahead = t ++ s.terminator :: rest) :
    ∃ f, (parseSlots s span (fun d (_ : c ≤ d) => element d) d hd).Finds slots f ∧
      f.ahead = rest := by
  have hle {d : Cursor} (hd : c ≤ d) : c ≤ d.skipSpace := c.le_trans hd d.le_skipSpace
  induction h generalizing d with
  | nil hu =>
    have hend := Cursor.current_of_ahead (Cursor.ahead_skipSpace hu hterm.not_isSpace ht)
    exact ⟨_, finds_parseSlots.2 (.inl ⟨hend.1, rfl, rfl⟩), hend.2⟩
  | @last a u x w hu hx hw =>
    obtain ⟨y, e, hcur, hy, he, hrest⟩ := finds_element hu hx hw hterm ht
    have hend := Cursor.current_of_ahead hrest
    have hslot : (parseSlot s y d.skipSpace (hle hd) fun d _ => element d).Finds (some a) e :=
      finds_parseSlot.2 (.inr ⟨fun h => hy (h ▸ hsep), a, he, rfl⟩)
    exact ⟨_, finds_parseSlots.2 (.inr ⟨y, some a, e, hle hd, hcur, fun h => hy (h ▸ hterm), hslot,
      .inl ⟨hend.1, rfl, rfl⟩⟩), hend.2⟩
  | @blank slots u t hb hu _ ih =>
    have hstart : d.skipSpace.ahead = s.separator :: (t ++ s.terminator :: rest) :=
      Cursor.ahead_skipSpace hu hsep.not_isSpace (by rw [ht]; simp)
    obtain ⟨hcur, hadv⟩ := Cursor.current_of_ahead hstart
    -- An empty slot takes no characters, so the separator after it is the one that was seen.
    have hstay := d.skipSpace_skipSpace
    have hslot : (parseSlot s s.separator d.skipSpace (hle hd) fun d _ => element d).Finds none
        d.skipSpace := finds_parseSlot.2 (.inl ⟨rfl, hb, rfl, rfl⟩)
    obtain ⟨f, hf, hrest⟩ := ih (Cursor.le_advance_of_le (hle (hle hd))) (by rw [hstay, hadv])
    refine ⟨f, finds_parseSlots.2 (.inr ⟨_, none, d.skipSpace, hle hd, hcur, hne, hslot,
      .inr ⟨slots, _, ?_, hne, hf, rfl⟩⟩), hrest⟩
    rw [hstay, hcur]
  | @item a slots u x w t hu hx hw _ ih =>
    have hd' : d.ahead = u ++ x ++ w ++ s.separator :: (t ++ s.terminator :: rest) := by
      rw [ht]
      simp
    obtain ⟨y, e, hcur, hy, he, hrest⟩ := finds_element hu hx hw hsep hd'
    obtain ⟨hcur', hadv⟩ := Cursor.current_of_ahead hrest
    have hslot : (parseSlot s y d.skipSpace (hle hd) fun d _ => element d).Finds (some a) e :=
      finds_parseSlot.2 (.inr ⟨fun h => hy (h ▸ hsep), a, he, rfl⟩)
    obtain ⟨f, hf, hrest⟩ := ih (Cursor.le_advance_of_le (hle (c.le_trans (hle hd) he.le))) hadv
    exact ⟨f, finds_parseSlots.2 (.inr ⟨y, some a, e, hle hd, hcur, fun h => hy (h ▸ hterm), hslot,
      .inr ⟨slots, _, hcur', hne, hf, rfl⟩⟩), hrest⟩

/-! ### Rules of the grammar -/

/-- Reading a spelling of a phrase, before anything that may stand there, finds the phrase and stops
after it. -/
def Reads : Phrase → List Char → Prop
  | .pattern p, s => Fills (fun c => parseKind c (later c)) p s
  | .slots ps, t => ∃ slots,
      SlotTexts .array (fun p s => Starts s ∧ Fills parsePattern p s) slots t ∧
        slots.map (·.getD .blank) = ps
  | .entries es, t => ∃ slots,
      SlotTexts .object (fun e s => Starts s ∧ Fills (fun c => parseEntry c (later c)) e s) slots
        t ∧ slots.filterMap id = es
  | .entry e, s => Fills (fun c => parseEntry c (later c)) e s
  | .arguments as, s => ∀ (c : Cursor) (w rest : List Char), Spaces w →
      c.ahead = (s ++ w ++ ')' :: rest).dropWhile isSpace →
      ∃ e, (parseArguments c (later c)).Finds as e ∧ e.skipSpace.ahead = ')' :: rest

/-- The first character decides which kind of pattern is read. -/
theorem parseKind_eq {x : Char} (hx : c.current = some x) (inner : Later c) :
    parseKind c inner =
      if x = '[' then (parseElements c (Cursor.lt_advance hx) inner).map .array
      else if x = '\x7b' then (parseEntries c (Cursor.lt_advance hx) inner).map .object
      else if x = '\'' ∨ x = '"' then parseString x c
      else if x.isDigit then parseNumber c
      else if isWordStart x then parseTagged true c inner
      else .fail (.unexpected "a pattern" c) c c.le_refl := by
  unfold parseKind
  split
  · simp_all
  · rename_i y hy
    obtain rfl : x = y := Option.some.inj (hx.symm.trans hy)
    rfl

/-- Where a word stands, a constructor pattern or a word is read. -/
theorem parseKind_of_word {w : String} {r : List Char} (hw : isWord w = true)
    (hc : c.ahead = w.toList ++ r) (inner : Later c) :
    parseKind c inner = parseTagged true c inner := by
  obtain ⟨x, v, hx, hstart, -⟩ := isWord_cases hw
  have hcur : c.current = some x := Cursor.current_eq_some.2 ⟨v ++ r, by rw [hc, hx]; rfl⟩
  have hne {y : Char} (hy : isWordStart y = false) : x ≠ y := by
    rintro rfl
    simp [hstart] at hy
  have hquote : ¬ (x = '\'' ∨ x = '"') := not_or.2 ⟨hne (by decide), hne (by decide)⟩
  rw [parseKind_eq hcur, if_neg (hne (by decide)), if_neg (hne (by decide)), if_neg hquote,
    if_neg (by simp [not_isDigit_of_isWordStart hstart]), if_pos hstart]

/-- Past the white space after a pattern comes nothing but a delimiter. -/
theorem Delimits.not_current {rest : List Char} (hr : Delimits rest) {e : Cursor}
    (he : e.ahead = rest) {x : Char} (hx : ¬ IsDelimiter x) : e.skipSpace.current ≠ some x := by
  intro h
  subst he
  exact hx (hr x h)

/-- A word alone is read as the pattern that it stands for. -/
theorem reads_word {w : String} (hw : isWord w = true) :
    Reads (.pattern (.ofWord w)) w.toList := by
  intro c rest hc hr
  obtain ⟨e, he, hrest⟩ := parseWord_of_isWord hw hc hr.breaks
  -- With a parenthesis after it the word would be the name of a constructor.
  have hopen : e.skipSpace.current ≠ some '(' := hr.not_current hrest (by simp [IsDelimiter])
  refine ⟨e.skipSpace, ?_, by rw [Cursor.skipSpace_skipSpace, ← hrest]; rfl⟩
  show (parseKind c (later c)).Finds _ _
  rw [parseKind_of_word hw hc]
  simp only [parseTagged, Step.finds_bind]
  refine ⟨w, e, he.le, he, ?_⟩
  simp only [hopen, dite_false, if_true, Step.finds_done, and_self]

/-- A numeral is read as the double that is nearest to it. -/
theorem reads_number {n : Decimal} {v : Double} {s : List Char} (hs : Numeral s n)
    (hn : n.RoundsTo v) (hv : v.isFinite = true) : Reads (.pattern (.number v)) s := by
  intro c rest hc hr
  obtain ⟨x, r, rfl, hx⟩ := exists_digit_of_numeral hs
  have hcur : c.current = some x := Cursor.current_eq_some.2 ⟨r ++ rest, hc⟩
  have hne {y : Char} (hy : y.isDigit = false) : x ≠ y := by
    rintro rfl
    simp [hx] at hy
  have hquote : ¬ (x = '\'' ∨ x = '"') := not_or.2 ⟨hne (by decide), hne (by decide)⟩
  obtain ⟨e, he, hrest⟩ := parseNumber_of_numeral hs hn hv hc hr.breaks
  refine ⟨e, ?_, by rw [← hrest]; rfl⟩
  show (parseKind c (later c)).Finds _ _
  rw [parseKind_eq hcur, if_neg (hne (by decide)), if_neg (hne (by decide)), if_neg hquote,
    if_pos hx]
  exact he

/-- A string literal is read with its escapes resolved. -/
theorem reads_string {quote : Char} {s v : List Char} (hquote : quote = '\'' ∨ quote = '"')
    (hs : Quoted quote s v) :
    Reads (.pattern (.string (String.ofList v))) (quote :: (s ++ [quote])) := by
  intro c rest hc hr
  have hcur : c.current = some quote := Cursor.current_eq_some.2 ⟨_, hc⟩
  have hbody : c.ahead = quote :: (s ++ quote :: rest) := by rw [hc]; simp
  obtain ⟨e, he, hrest⟩ :=
    parseString_of_quoted (by rcases hquote with rfl | rfl <;> decide) hs hbody
  refine ⟨e, ?_, by rw [← hrest]; rfl⟩
  show (parseKind c (later c)).Finds _ _
  rw [parseKind_eq hcur, if_neg (by rcases hquote with rfl | rfl <;> decide),
    if_neg (by rcases hquote with rfl | rfl <;> decide), if_pos hquote]
  exact he

/-- The elements of an array are found between square brackets. -/
theorem parseElements_of_reads {ps : List Pattern} {s rest : List Char} (h : Reads (.slots ps) s)
    (hc : c.ahead = '[' :: (s ++ ']' :: rest)) (hlt : c < c.advance) :
    ∃ e, (parseElements c hlt (later c)).Finds ps e ∧ e.ahead = rest := by
  obtain ⟨slots, hslots, rfl⟩ := h
  obtain ⟨e, he, hrest⟩ := parseSlots_of_slotTexts (s := .array) c.currentSpan (by decide)
    (by simp [IsDelimiter, Series.array]) (by simp [IsDelimiter, Series.array]) hslots
    c.advance.le_refl (Cursor.current_of_ahead hc).2
  refine ⟨e, ?_, hrest⟩
  simp only [parseElements, parseSeries, Step.finds_since, Step.finds_map]
  exact ⟨slots, he, rfl⟩

/-- The entries of an object are found between curly brackets. -/
theorem parseEntries_of_reads {es : List Entry} {s rest : List Char} (h : Reads (.entries es) s)
    (hc : c.ahead = '\x7b' :: (s ++ '\x7d' :: rest)) (hlt : c < c.advance) :
    ∃ e, (parseEntries c hlt (later c)).Finds es e ∧ e.ahead = rest := by
  obtain ⟨slots, hslots, rfl⟩ := h
  obtain ⟨e, he, hrest⟩ := parseSlots_of_slotTexts (s := .object) c.currentSpan (by decide)
    (by simp [IsDelimiter, Series.object]) (by simp [IsDelimiter, Series.object]) hslots
    c.advance.le_refl (Cursor.current_of_ahead hc).2
  refine ⟨e, ?_, hrest⟩
  simp only [parseEntries, parseSeries, Step.finds_since, Step.finds_map]
  exact ⟨slots, he, rfl⟩

theorem reads_array {ps : List Pattern} {s : List Char} (h : Reads (.slots ps) s) :
    Reads (.pattern (.array ps)) ('[' :: (s ++ [']'])) := by
  intro c rest hc hr
  have hc' : c.ahead = '[' :: (s ++ ']' :: rest) := by rw [hc]; simp
  have hcur := (Cursor.current_of_ahead hc').1
  obtain ⟨e, he, hrest⟩ := parseElements_of_reads h hc' (Cursor.lt_advance hcur)
  refine ⟨e, ?_, by rw [← hrest]; rfl⟩
  show (parseKind c (later c)).Finds _ _
  rw [parseKind_eq hcur, if_pos rfl]
  exact Step.finds_map.2 ⟨ps, he, rfl⟩

theorem reads_object {es : List Entry} {s : List Char} (h : Reads (.entries es) s) :
    Reads (.pattern (.object es)) ('\x7b' :: (s ++ ['\x7d'])) := by
  intro c rest hc hr
  have hc' : c.ahead = '\x7b' :: (s ++ '\x7d' :: rest) := by rw [hc]; simp
  have hcur := (Cursor.current_of_ahead hc').1
  obtain ⟨e, he, hrest⟩ := parseEntries_of_reads h hc' (Cursor.lt_advance hcur)
  refine ⟨e, ?_, by rw [← hrest]; rfl⟩
  show (parseKind c (later c)).Finds _ _
  rw [parseKind_eq hcur, if_neg (by decide), if_pos rfl]
  exact Step.finds_map.2 ⟨es, he, rfl⟩

theorem reads_positional {ps : List Pattern} {s : List Char} (h : Reads (.slots ps) s) :
    Reads (.arguments (.positional ps)) ('[' :: (s ++ [']'])) := by
  intro c w rest hw hc
  have hc' : c.ahead = '[' :: (s ++ ']' :: (w ++ ')' :: rest)) := by
    rw [hc, List.append_assoc, List.cons_append, dropWhile_of_not_isSpace (by decide)]
    simp
  have hcur := (Cursor.current_of_ahead hc').1
  obtain ⟨e, he, hrest⟩ := parseElements_of_reads h hc' (Cursor.lt_advance hcur)
  refine ⟨e, ?_, Cursor.ahead_skipSpace hw (by decide) hrest⟩
  rw [parseArguments, dif_pos hcur]
  exact Step.finds_map.2 ⟨ps, he, rfl⟩

theorem reads_keyed {es : List Entry} {s : List Char} (h : Reads (.entries es) s) :
    Reads (.arguments (.keyed es)) ('\x7b' :: (s ++ ['\x7d'])) := by
  intro c w rest hw hc
  have hc' : c.ahead = '\x7b' :: (s ++ '\x7d' :: (w ++ ')' :: rest)) := by
    rw [hc, List.append_assoc, List.cons_append, dropWhile_of_not_isSpace (by decide)]
    simp
  have hcur := (Cursor.current_of_ahead hc').1
  obtain ⟨e, he, hrest⟩ := parseEntries_of_reads h hc' (Cursor.lt_advance hcur)
  refine ⟨e, ?_, Cursor.ahead_skipSpace hw (by decide) hrest⟩
  rw [parseArguments, dif_neg (by rw [hcur]; decide), dif_pos hcur]
  exact Step.finds_map.2 ⟨es, he, rfl⟩

/-- Where neither bracket stands, no arguments are read. -/
theorem reads_unspecified : Reads (.arguments .unspecified) [] := by
  intro c w rest hw hc
  rw [List.nil_append, dropWhile_spaces_cons hw (by decide)] at hc
  have hcur := (Cursor.current_of_ahead hc).1
  refine ⟨c, ?_, by rw [Cursor.skipSpace_eq_self hcur (by decide)]; exact hc⟩
  rw [parseArguments, dif_neg (by rw [hcur]; decide), dif_neg (by rw [hcur]; decide)]
  exact (Step.finds_done _).2 ⟨rfl, rfl⟩

theorem parseClosing_of_ahead (name : String) {span : Span} {as : Arguments} {rest : List Char}
    (h : c.skipSpace.ahead = ')' :: rest) :
    ∃ e, (parseClosing name span as c).Finds (.tagged name as) e ∧ e.ahead = rest := by
  obtain ⟨hcur, hrest⟩ := Cursor.current_of_ahead h
  refine ⟨c.skipSpace.advance, ?_, hrest⟩
  simp only [parseClosing, hcur, if_true, Step.finds_done, and_self]

/-- A constructor pattern is read with any white space in and around its parentheses. -/
theorem reads_tagged {name : String} {as : Arguments} {u v s w : List Char} (hname : IsName name)
    (hu : Spaces u) (hv : Spaces v) (h : Reads (.arguments as) s) (hw : Spaces w) :
    Reads (.pattern (.tagged name as)) (name.toList ++ u ++ '(' :: (v ++ s ++ w ++ [')'])) := by
  intro c rest hc hr
  have hc' : c.ahead = name.toList ++ (u ++ '(' :: (v ++ s ++ w ++ ')' :: rest)) := by
    rw [hc]
    simp
  obtain ⟨d, hd, hdrest⟩ := parseWord_of_isWord hname.1 hc' (breaks_spaces hu (by decide) _)
  have hopen := Cursor.ahead_skipSpace hu (by decide) hdrest
  obtain ⟨hcur, hadv⟩ := Cursor.current_of_ahead hopen
  have hf : d.skipSpace.advance.skipSpace.ahead = (s ++ w ++ ')' :: rest).dropWhile isSpace := by
    show d.skipSpace.advance.ahead.dropWhile isSpace = _
    rw [hadv, List.append_assoc, List.append_assoc, dropWhile_spaces hv, List.append_assoc]
  obtain ⟨g, hg, hclose⟩ := h _ w rest hw hf
  obtain ⟨e, he, hrest⟩ := parseClosing_of_ahead name hclose
  refine ⟨e, ?_, by rw [← hrest]; rfl⟩
  show (parseKind c (later c)).Finds _ _
  rw [parseKind_of_word hname.1 hc']
  simp only [parseTagged, Step.finds_bind]
  refine ⟨name, d, hd.le, hd, ?_⟩
  simp only [hcur, dite_true, hname.2, Bool.false_eq_true, if_false, Step.finds_since,
    Step.finds_after, Step.finds_bind]
  exact ⟨as, g, hg.le, hg, he⟩

/-- A key alone is read as an entry if no colon follows it. -/
theorem reads_shorthand {key : String} (hkey : IsName key) :
    Reads (.entry (.shorthand key)) key.toList := by
  intro c rest hc hr
  obtain ⟨e, he, hrest⟩ := parseWord_of_isWord hkey.1 hc hr.breaks
  have hcolon : e.skipSpace.current ≠ some ':' := hr.not_current hrest (by simp [IsDelimiter])
  refine ⟨e.skipSpace, ?_, by rw [Cursor.skipSpace_skipSpace, ← hrest]; rfl⟩
  simp only [parseEntry, Step.finds_bind, Step.finds_within]
  refine ⟨key, e, he.le, he, ?_⟩
  simp only [hcolon, dite_false, hkey.2, Bool.false_eq_true, if_false, Step.finds_done, and_self]

/-- A key with a colon is read with the pattern after it. -/
theorem reads_explicit {key : String} {p : Pattern} {u v s : List Char} (hkey : isWord key = true)
    (hany : key ≠ "_") (hu : Spaces u) (hv : Spaces v) (hs : Starts s)
    (h : Reads (.pattern p) s) :
    Reads (.entry (.explicit key p)) (key.toList ++ u ++ ':' :: (v ++ s)) := by
  intro c rest hc hr
  have hc' : c.ahead = key.toList ++ (u ++ ':' :: (v ++ (s ++ rest))) := by rw [hc]; simp
  obtain ⟨d, hd, hdrest⟩ := parseWord_of_isWord hkey hc' (breaks_spaces hu (by decide) _)
  obtain ⟨hcur, hadv⟩ := Cursor.current_of_ahead (Cursor.ahead_skipSpace hu (by decide) hdrest)
  have hvalue : d.skipSpace.advance.skipSpace.ahead = s ++ rest := by
    obtain ⟨x, r, rfl, hx, -⟩ := hs
    exact Cursor.ahead_skipSpace hv hx hadv
  obtain ⟨e, he, hrest⟩ := fills_parsePattern hs h _ _ hvalue hr
  refine ⟨e, ?_, hrest⟩
  simp only [parseEntry, Step.finds_bind, Step.finds_within]
  refine ⟨key, d, hd.le, hd, ?_⟩
  simp only [hcur, dite_true, hany, if_false, Step.finds_since, Step.finds_map]
  exact ⟨p, finds_parsePattern_skipSpace.1 he, rfl⟩

/-- Each phrase is found in every text that spells it. -/
theorem reads_of_derives {ph : Phrase} {s : List Char} (h : Derives ph s) : Reads ph s := by
  induction h with
  | array _ ih => exact reads_array ih
  | object _ ih => exact reads_object ih
  | tagged hname hu hv _ hw ih => exact reads_tagged hname hu hv ih hw
  | @binder name hname =>
    have hword : Pattern.ofWord name = .binder name := by
      have hres := hname.2
      simp only [isReserved, Bool.or_eq_false_iff, beq_eq_false_iff_ne, Option.isSome_eq_false_iff,
        Option.isNone_iff_eq_none] at hres
      rw [Pattern.ofWord, if_neg hres.1, hres.2]
    exact hword ▸ reads_word hname.1
  | constant k =>
    have hword : Pattern.ofWord k.word = .constant k := by cases k <;> rfl
    exact hword ▸ reads_word (isWord_word k)
  | wildcard => exact reads_word (w := "_") (by decide)
  | number hs hn hv => exact reads_number hs hn hv
  | string hquote hs => exact reads_string hquote hs
  | noSlot hu => exact ⟨[], .nil hu, rfl⟩
  | @lastSlot p _ _ _ hu hs hw ih =>
    have hstart := starts_of_derives_pattern hs
    exact ⟨[some p], .last hu ⟨hstart, fills_parsePattern hstart ih⟩ hw, rfl⟩
  | emptySlot hu _ ih =>
    obtain ⟨slots, hslots, rfl⟩ := ih
    exact ⟨none :: slots, .blank rfl hu hslots, rfl⟩
  | @filledSlot p _ _ _ _ _ hu hs hw _ ih ihs =>
    obtain ⟨slots, hslots, rfl⟩ := ihs
    have hstart := starts_of_derives_pattern hs
    exact ⟨some p :: slots, .item hu ⟨hstart, fills_parsePattern hstart ih⟩ hw hslots, rfl⟩
  | noEntry hu => exact ⟨[], .nil hu, rfl⟩
  | @lastEntry e _ _ _ hu hs hw ih =>
    exact ⟨[some e], .last hu ⟨starts_of_derives_entry hs, ih⟩ hw, rfl⟩
  | @moreEntries e _ _ _ _ _ hu hs hw _ ih ihs =>
    obtain ⟨slots, hslots, rfl⟩ := ihs
    exact ⟨some e :: slots, .item hu ⟨starts_of_derives_entry hs, ih⟩ hw hslots, rfl⟩
  | shorthand hkey => exact reads_shorthand hkey
  | explicit hkey hany hu hv hs ih =>
    exact reads_explicit hkey hany hu hv (starts_of_derives_pattern hs) ih
  | unspecified => exact reads_unspecified
  | positional _ ih => exact reads_positional ih
  | keyed _ ih => exact reads_keyed ih

/-! ### Texts -/

/-- A whole text is a pattern with nothing after it. -/
theorem finds_parseWhole {p : Pattern} {e : Cursor} :
    (parseWhole c).Finds p e ↔ (parsePattern c).Finds p e ∧ e.ahead = [] := by
  simp only [parseWhole, Step.finds_bind, Step.finds_map, finds_parseEnd]
  constructor
  · rintro ⟨q, d, -, hq, -, ⟨hend, rfl⟩, rfl⟩
    exact ⟨hq, hend⟩
  · rintro ⟨hp, hend⟩
    exact ⟨p, e, hp.le, hp, (), ⟨hend, rfl⟩, rfl⟩

/-- A text that spells a pattern is read as that pattern. -/
theorem parse_of_spelledBy {t : String} {p : Pattern} (h : p.SpelledBy t.toList) :
    Pattern.parse t = .ok p := by
  obtain ⟨u, s, w, ht, hu, hs, hw⟩ := h
  have hstart := starts_of_derives_pattern hs
  have hend : w.dropWhile isSpace = [] := List.dropWhile_eq_nil_iff.2 hw
  have hskip : (Cursor.ofString t).skipSpace.ahead = s ++ w := by
    obtain ⟨x, r, rfl, hx, -⟩ := hstart
    exact Cursor.ahead_skipSpace hu hx (ht.trans (List.append_assoc _ _ _))
  have hlast : Delimits w := delimits_of_spaces hw
  obtain ⟨e, he, hrest⟩ := fills_parsePattern hstart (reads_of_derives hs) _ _ hskip hlast
  have hp := finds_parsePattern_skipSpace.1 he
  obtain ⟨d, -, rfl⟩ := finds_parsePattern.1 hp
  rw [Cursor.skipSpace_skipSpace, hend] at hrest
  exact (finds_parseWhole.2 ⟨hp, hrest⟩).1

/-- **A text is read as a pattern exactly if it spells that pattern.** -/
theorem parse_eq_ok_iff_spelledBy (t : String) (p : Pattern) :
    Pattern.parse t = .ok p ↔ p.SpelledBy t.toList := by
  constructor
  · intro h
    have hfinds : (parseWhole (Cursor.ofString t)).Finds p _ := ⟨h, rfl⟩
    obtain ⟨hp, hend⟩ := finds_parseWhole.1 hfinds
    obtain ⟨x, hx, hspell⟩ := spelledBy_of_parsePattern hp
    have ht : t.toList = x := by
      rw [hend, List.append_nil] at hx
      exact hx
    rw [ht]
    exact hspell
  · exact parse_of_spelledBy

end Destructure
