import Destructure.Proofs.Parsing.CallTree
import Destructure.Proofs.Parsing.EntryPoints

/-!
# Destructure.Proofs.Parsing.Calls

Reading a pattern is linear work: no more calls than places in the text, each one further on than
the one that made it, and no deeper in one another than there are brackets open. The laws are put
together in `parsing_is_linear`.

Calls are counted by what they log. That this counts all of them is `events_parsePattern`: a call
logs itself, and inside of it what its parts log.

Proof shape: one lemma for each production, with the slack that its definition has. What a pattern
is made of has none, since all calls in it come after a bracket; and a list has the slack of its
elements. As for `spelledBy_of_parsePattern`, the only induction over patterns is the last one.
-/

namespace Destructure

open Text

open Cursor (Between)

open ParseEvent (callsOf depthOf)

variable {K : BracketCount} {slack : Nat} {α : Type} {c d : Cursor}

/-! ### Tokens -/

theorem walks_parseWord : (parseWord c).Walks K slack := by
  unfold parseWord
  split
  · split
    · refine Step.walks_done ⟨c.le_skipWhile _, List.takeWhile_append_dropWhile.symm⟩ ?_
      exact K.closed_of_class (by decide) (List.all_eq_true.1 List.all_takeWhile)
    · exact Step.walks_fail _
  · exact Step.walks_fail _

theorem walks_parseNumber : (parseNumber c).Walks K slack := by
  unfold parseNumber
  dsimp only
  split
  · refine Step.walks_done ⟨c.le_skipWhile _, List.takeWhile_append_dropWhile.symm⟩ ?_
    exact K.closed_of_class (by decide) (List.all_eq_true.1 List.all_takeWhile)
  · exact Step.walks_fail _

theorem walks_parseString {quote : Char} (hquote : quote = '\'' ∨ quote = '"')
    (hc : c.current = some quote) : (parseString quote c).Walks K slack := by
  unfold parseString
  dsimp only
  split
  · rename_i body rest hbody
    have hahead : c.ahead = (quote :: (body ++ [quote])) ++ rest := by
      rw [Cursor.ahead_of_current hc, eq_of_body? hbody]
      simp
    exact Step.walks_done ⟨c.le_trans c.le_advance (Cursor.le_past _), hahead⟩
      (K.closed_of_quoted hquote (quoted_of_body? hbody))
  · exact Step.walks_fail _

/-! ### Lists -/

section

variable {s : Series} {span : Span} {element : (d : Cursor) → c ≤ d → Step α d}

theorem walk_of_round (helement : ∀ d h, (element d h).Walks K 1) {r : Round α}
    (h : r.At s element d) : ∃ w, Walk K 1 true d w r.closing r.events := by
  obtain ⟨u, hu⟩ := Walk.skipSpace K 1 true d
  cases h with
  | blank =>
    obtain ⟨v, hv⟩ := Walk.skipSpace K 1 true d.skipSpace
    exact ⟨u ++ v, (hu.append_passed hv).noted rfl⟩
  | @filled x a e h hx hxt hxs hfinds =>
    obtain ⟨w, hw⟩ := helement d.skipSpace h
    obtain ⟨hresult, rfl⟩ := hfinds
    rw [hresult] at hw
    obtain ⟨v, hv⟩ := Walk.skipSpace K 1 true (element d.skipSpace h).next
    exact ⟨u ++ w ++ v, ((hu.append hw).append_passed hv).noted rfl⟩

theorem walk_of_rounds (helement : ∀ d h, (element d h).Walks K 1)
    (hseparator : K.Closed [s.separator]) {rounds : List (Round α)} {g : Cursor}
    (h : Rounds s element d rounds g) :
    ∃ w, Walk K 1 true d w g (rounds.flatMap Round.events) := by
  induction h with
  | nil d => exact ⟨[], .refl d⟩
  | @cons d g r rs hround hcur _ _ ih =>
    obtain ⟨v, hv⟩ := walk_of_round helement hround
    obtain ⟨w, hw⟩ := ih
    have hpassed : Walk K 1 true r.closing [s.separator] r.closing.advance [] :=
      .passed (.advance hcur) fun _ => hseparator
    exact ⟨_, (hv.append_passed hpassed).append hw⟩

theorem walk_of_ends (helement : ∀ d h, (element d h).Walks K 1)
    (hterminator : K.Closed [s.terminator]) {g f : Cursor}
    {result : Except ParseError (List (Option α))} {es : List ParseEvent}
    (h : Ends s span element g result f es) : ∃ w, Walk K 1 result.isOk g w f es := by
  obtain ⟨u, hu⟩ := Walk.skipSpace K 1 true g
  cases h with
  | closed hcur => exact ⟨_, hu.append_passed (.passed (.advance hcur) fun _ => hterminator)⟩
  | closedAfter hround _ hcur =>
    obtain ⟨v, hv⟩ := walk_of_round helement hround
    exact ⟨_, hv.append_passed (.passed (.advance hcur) fun _ => hterminator)⟩
  | unclosed | emptySlot => exact ⟨u, hu.weaken nofun⟩
  | unclosedAfter hround | unseparated hround =>
    obtain ⟨v, hv⟩ := walk_of_round helement hround
    exact ⟨v, hv.weaken nofun⟩
  | failed h _ _ _ hfails =>
    obtain ⟨w, hw⟩ := helement g.skipSpace h
    obtain ⟨hresult, rfl⟩ := hfails
    rw [hresult] at hw
    exact ⟨u ++ w, (hu.append hw).noted rfl⟩

/-- A list of any form has the slack of its elements. -/
theorem walks_parseSeries (helement : ∀ d h, (element d h).Walks K 1)
    (hseparator : K.Closed [s.separator]) (hterminator : K.Closed [s.terminator]) :
    (parseSeries s span c element).Walks K 1 := by
  generalize ht : parseSeries s span c element = t
  obtain ⟨rounds, g, result, es, hrounds, hends, hresult, hevents⟩ := parseSlots_run _ ht
  obtain ⟨v, hv⟩ := walk_of_rounds helement hseparator hrounds
  obtain ⟨w, hw⟩ := walk_of_ends helement hterminator hends
  refine ⟨v ++ w, ?_⟩
  rw [hevents, hresult]
  exact (hv.append hw).weaken fun h => by cases result <;> exact h

end

/-! ### Productions -/

/-- What the parser for inner patterns does is a walk. -/
def LaterWalks (K : BracketCount) (inner : Later c) : Prop := ∀ d h, (inner d h).Walks K 1

section

variable {inner : Later c}

/-- All calls for the elements of an array come after its bracket. -/
theorem walks_parseElements (hinner : LaterWalks K inner) (hc : c.current = some '[')
    {h : c < c.advance} : (parseElements c h inner).Walks K 0 := by
  refine Step.Walks.since_opened (b := .square) (.refl c) hc (.refl _) (Cursor.le_of_lt h)
    (Step.Walks.map ?_ _)
  exact walks_parseSeries (fun d hd => hinner d _) (K.closed_singleton (by decide))
    (K.closed_singleton (by decide))

/-- An entry may call the pattern parser with no bracket of its own. -/
theorem walks_parseEntry (hinner : LaterWalks K inner) : (parseEntry c inner).Walks K 1 := by
  unfold parseEntry
  refine (walks_parseWord.within _).bind fun key d hd _ => ?_
  obtain ⟨u, hu, hdu⟩ := Between.exists_spaces d
  dsimp only
  split
  · rename_i hcolon
    split
    · exact Step.walks_fail _
    · refine Step.Walks.since (hdu.trans (.advance hcolon)) ?_ ((hinner _ _).map _)
      exact K.closed_append (K.closed_of_spaces hu) (K.closed_singleton (by decide))
  · split
    · exact Step.walks_fail _
    · exact Step.walks_done hdu (K.closed_of_spaces hu)

theorem walks_parseEntries (hinner : LaterWalks K inner) (hc : c.current = some '\x7b')
    {h : c < c.advance} : (parseEntries c h inner).Walks K 0 := by
  refine Step.Walks.since_opened (b := .curly) (.refl c) hc (.refl _) (Cursor.le_of_lt h)
    (Step.Walks.map ?_ _)
  exact walks_parseSeries (fun d hd => walks_parseEntry fun e he => hinner e _)
    (K.closed_singleton (by decide)) (K.closed_singleton (by decide))

theorem walks_parseArguments (hinner : LaterWalks K inner) :
    (parseArguments c inner).Walks K 1 := by
  unfold parseArguments
  split
  · rename_i hc
    exact ((walks_parseElements hinner hc).map _).slack_one
  · split
    · rename_i hc
      exact ((walks_parseEntries hinner hc).map _).slack_one
    · exact Step.walks_done (.refl c) (K.closed_of_spaces spaces_nil)

theorem walks_parseClosing {name : String} {span : Span} {as : Arguments} :
    (parseClosing name span as c).Walks K slack := by
  obtain ⟨u, hu, hcu⟩ := Between.exists_spaces c
  unfold parseClosing
  dsimp only
  split
  · rename_i x hx
    split
    · rename_i hclose
      subst hclose
      exact Step.walks_done (hcu.trans (.advance hx))
        (K.closed_append (K.closed_of_spaces hu) (K.closed_singleton (by decide)))
    · exact Step.walks_fail _
  · exact Step.walks_fail _

/-- All calls for the arguments come after the parenthesis. -/
theorem walks_parseTagged (hinner : LaterWalks K inner) (acceptWord : Bool) :
    (parseTagged acceptWord c inner).Walks K 0 := by
  unfold parseTagged
  refine walks_parseWord.bind fun name d hd _ => ?_
  dsimp only
  split
  · rename_i hopen
    split
    · exact Step.walks_fail _
    · obtain ⟨u, hu⟩ := Walk.skipSpace K 0 true d
      obtain ⟨v, hv⟩ := Walk.skipSpace K 1 true d.skipSpace.advance
      refine Step.Walks.since_opened (b := .round) hu hopen hv _ (Step.Walks.after ?_ rfl)
      exact (walks_parseArguments fun e he => hinner e _).bind fun as g hg _ => walks_parseClosing
  · split
    · obtain ⟨u, hu, hdu⟩ := Between.exists_spaces d
      exact Step.walks_done hdu (K.closed_of_spaces hu)
    · exact Step.walks_fail _

/-- A pattern of any kind makes no call where it starts. -/
theorem walks_parseKind (hinner : LaterWalks K inner) : (parseKind c inner).Walks K 0 := by
  unfold parseKind
  split
  · exact Step.walks_fail _
  · rename_i x hx
    split
    · rename_i harray
      subst harray
      exact (walks_parseElements hinner hx).map _
    split
    · rename_i hobject
      subst hobject
      exact (walks_parseEntries hinner hx).map _
    split
    · rename_i hquote
      exact walks_parseString hquote hx
    split
    · exact walks_parseNumber
    split
    · exact walks_parseTagged hinner true
    · exact Step.walks_fail _

end

/-! ### Patterns -/

/-- A call of the pattern parser logs itself, with all that happened in it, and nothing else. -/
theorem events_parsePattern (c : Cursor) :
    (parsePattern c).events =
      [.pattern c.skipSpace.offset (parseKind c.skipSpace fun d _ => parsePattern d).events] := by
  rw [parsePattern]
  unfold Step.since
  dsimp only
  generalize ht : Step.bind _ _ = t
  rcases Step.bind_cases ht with ⟨e, -, -, -, hevents⟩ | ⟨p, v, -, hv, -, -, hevents⟩
  · exact hevents
  · subst hv
    exact hevents.trans (List.append_nil _)

/-- What is read as a pattern starts with a character that is no white space. -/
theorem exists_char_of_derives {p : Pattern} {s : List Char} (h : Derives (.pattern p) s) :
    ∃ x ∈ s, isSpace x = false := by
  obtain ⟨x, r, rfl, hx, -⟩ := starts_of_derives_pattern h
  exact ⟨x, List.mem_cons_self, hx⟩

/-- A call of the pattern parser is a walk with itself as its first call. -/
theorem walks_parsePattern (K : BracketCount) (c : Cursor) : (parsePattern c).Walks K 1 := by
  induction hn : c.ahead.length using Nat.strong_induction_on generalizing c with
  | _ n ih =>
  subst hn
  have hinner : LaterWalks (c := c.skipSpace) K fun e _ => parsePattern e := fun e he =>
    ih _ (Nat.lt_of_lt_of_le (Cursor.length_ahead_lt he)
      (Cursor.length_ahead_le c.le_skipSpace)) e rfl
  obtain ⟨u, hu, hcu⟩ := Between.exists_spaces c
  rw [parsePattern]
  refine Step.Walks.since hcu (K.closed_of_spaces hu) (Step.Walks.bind ?_ fun p e _ _ => ?_)
  · obtain ⟨w, hw⟩ := (walks_parseKind hinner).within .pattern
    refine ⟨w, hw.called c.skipSpace_skipSpace fun hok => ?_⟩
    obtain ⟨p, hfinds⟩ := Step.exists_finds_of_isOk hok
    obtain ⟨s, v, hs, hp, -⟩ :=
      pattern_of_parseKind laterSound_parsePattern ((Step.finds_within _).1 hfinds)
    obtain ⟨x, hx, -⟩ := exists_char_of_derives hp
    refine Between.lt ⟨hfinds.le, hs⟩ fun hnil => ?_
    exact List.not_mem_nil (hnil ▸ List.mem_append_left v hx)
  · obtain ⟨v, hv, hev⟩ := Between.exists_spaces e
    exact Step.walks_done hev (K.closed_of_spaces hv)

theorem walks_parseWordPattern (K : BracketCount) (acceptWord : Bool) (c : Cursor) :
    (parseWordPattern acceptWord c).Walks K 0 :=
  walks_parseTagged (fun d _ => walks_parsePattern K d) acceptWord

theorem walks_parseEnd : (parseEnd c).Walks K slack := by
  unfold parseEnd
  split
  · exact Step.walks_done (.refl c) (K.closed_of_spaces spaces_nil)
  · exact Step.walks_fail _

theorem walks_parseWhole (K : BracketCount) (c : Cursor) : (parseWhole c).Walks K 1 :=
  (walks_parsePattern K c).bind fun _ _ _ _ => walks_parseEnd.map _

theorem walks_parseWholeTagged (K : BracketCount) (c : Cursor) :
    (parseWholeTagged c).Walks K 1 := by
  obtain ⟨u, hu, hcu⟩ := Between.exists_spaces c
  refine Step.Walks.bind (Step.Walks.since hcu (K.closed_of_spaces hu) ?_) fun p d _ _ => ?_
  · exact (walks_parseWordPattern K false _).slack_one
  · obtain ⟨v, hv, hdv⟩ := Between.exists_spaces d
    exact Step.Walks.since hdv (K.closed_of_spaces hv) (walks_parseEnd.map _)

/-! ### Linear work -/

/-- The step does not move back, and its calls of the pattern parser climb: there are at most as
many as places in the text, and what a call makes lies further on than the call itself, even
without the white space before it. -/
structure Step.IsLinear (t : Step α c) : Prop where
  forward : c ≤ t.next
  length_calls_le : ∀ w, Between c w t.next → (callsOf t.events).length ≤ w.length + 1
  nested : ∀ offset inner, ParseEvent.Occurs (.pattern offset inner) t.events →
    ∀ e, c ≤ e → e.skipSpace.offset ∈ callsOf inner → offset < e.offset

/-- The calls are no deeper in one another than by one more than the brackets passed. -/
def Step.IsShallow (t : Step α c) : Prop :=
  ∀ w, Between c w t.next → depthOf t.events ≤ openings .outside w + 1

/-- Whatever is found has a character that is no white space. -/
def Step.Consumes (t : Step α c) : Prop :=
  ∀ a d, t.Finds a d → ∃ w, Between c w d ∧ ∃ x ∈ w, isSpace x = false

/-- The laws for reading one pattern. -/
structure Step.ReadsLinearly (t : Step α c) : Prop where
  linear : t.IsLinear
  shallow : t.IsShallow
  consumes : t.Consumes

/-- The laws for reading a whole text. -/
structure Step.ReadsText (text : String) (t : Step α (.ofString text)) : Prop where
  length_calls_le : (callsOf t.events).length ≤ text.toList.length + 1
  shallow : t.IsShallow

namespace Step.Walks

variable {t : Step α c}

/-- The calls of a walk climb, so there are at most as many as places. -/
theorem isLinear (h : t.Walks K 1) : t.IsLinear := by
  obtain ⟨w, hw⟩ := h
  refine ⟨t.le_next, fun v hv => ?_, fun offset inner hcall e hce he => ?_⟩
  · rw [hv.unique hw.between]
    exact hw.length_calls_le
  · exact hw.lt_of_nested hcall hce he

/-- The depth of the calls of a walk is paid for by its brackets. -/
theorem isShallow (h : t.Walks .unquoted 1) : t.IsShallow := by
  obtain ⟨w, hw⟩ := h
  intro v hv
  rw [hv.unique hw.between]
  exact hw.depth_le

theorem readsText {text : String} {t : Step α (.ofString text)} (h : t.Walks .unquoted 1) :
    t.ReadsText text := by
  refine ⟨?_, h.isShallow⟩
  obtain ⟨w, hw⟩ := h
  have hlen : text.toList.length = (w ++ t.next.ahead).length :=
    congrArg List.length hw.between.ahead
  have := hw.length_calls_le
  rw [List.length_append] at hlen
  omega

end Step.Walks

/-- A pattern has at least one character that is no white space. -/
theorem consumes_parsePattern : (parsePattern c).Consumes := by
  intro p d h
  obtain ⟨w, hw, u, s, v, rfl, -, hs, -⟩ := spelledBy_of_parsePattern h
  obtain ⟨x, hx, hspace⟩ := exists_char_of_derives hs
  exact ⟨_, ⟨h.le, hw⟩, x, by simp [hx], hspace⟩

theorem consumes_parseWordPattern (acceptWord : Bool) :
    (parseWordPattern acceptWord c).Consumes := by
  intro p d h
  obtain ⟨s, v, hs, hp, -⟩ := pattern_of_parseTagged laterSound_parsePattern h
  obtain ⟨x, hx, hspace⟩ := exists_char_of_derives hp
  exact ⟨_, ⟨h.le, hs⟩, x, List.mem_append_left v hx, hspace⟩

theorem readsLinearly_parsePattern (c : Cursor) : (parsePattern c).ReadsLinearly :=
  have hwalks := walks_parsePattern .unquoted c
  ⟨hwalks.isLinear, hwalks.isShallow, consumes_parsePattern⟩

theorem readsLinearly_parseWordPattern (acceptWord : Bool) (c : Cursor) :
    (parseWordPattern acceptWord c).ReadsLinearly :=
  have hwalks := (walks_parseWordPattern .unquoted acceptWord c).slack_one
  ⟨hwalks.isLinear, hwalks.isShallow, consumes_parseWordPattern acceptWord⟩

/-- Lists of any form are read in linear work if their elements are. The separator may be a quote,
so brackets in string literals have to count here. -/
theorem isLinear_parseSeries {s : Series} {span : Span} {element : (d : Cursor) → c ≤ d → Step α d}
    (helement : ∀ d h, (element d h).Walks .all 1) : (parseSeries s span c element).IsLinear :=
  (walks_parseSeries helement trivial trivial).isLinear

/-- Every round of a list takes a character at least: its separator. -/
theorem Rounds.position_add_length_le {s : Series} {element : (d : Cursor) → c ≤ d → Step α d}
    {rounds : List (Round α)} {g : Cursor} (h : Rounds s element d rounds g) :
    d.position + rounds.length ≤ g.position := by
  induction h with
  | nil => exact Nat.le_refl _
  | cons hround hcur _ _ ih =>
    have := Cursor.position_le_position hround.le_closing
    have := Cursor.position_lt_position (Cursor.lt_advance hcur)
    rw [List.length_cons]
    omega

/-- **Reading is linear work**, from every place in a text: for patterns, whose calls are all on
record, for words and constructor patterns, for lists of any form, and for whole texts. -/
theorem parsing_is_linear :
    (∀ c, (parsePattern c).ReadsLinearly ∧ (parsePattern c).events =
      [.pattern c.skipSpace.offset (parseKind c.skipSpace fun d _ => parsePattern d).events]) ∧
    (∀ acceptWord c, (parseWordPattern acceptWord c).ReadsLinearly) ∧
    (∀ s span c, (parseSeries s span c fun d _ => parsePattern d).IsLinear ∧
      (parseSeries s span c fun d _ => parseWordPattern true d).IsLinear) ∧
    (∀ (s : Series) (c : Cursor) (element : (d : Cursor) → c ≤ d → Step Pattern d) (d g : Cursor)
      (rounds : List (Round Pattern)), Rounds s element d rounds g →
        d.position + rounds.length ≤ g.position) ∧
    ∀ text : String, (parseWhole (.ofString text)).ReadsText text ∧
      (parseWholeTagged (.ofString text)).ReadsText text := by
  refine ⟨fun c => ⟨readsLinearly_parsePattern c, events_parsePattern c⟩,
    readsLinearly_parseWordPattern, fun s span c => ⟨?_, ?_⟩, fun _ _ _ _ _ _ h => ?_,
    fun text => ⟨?_, ?_⟩⟩
  · exact isLinear_parseSeries fun d _ => walks_parsePattern .all d
  · exact isLinear_parseSeries fun d _ => (walks_parseWordPattern .all true d).slack_one
  · exact h.position_add_length_le
  · exact (walks_parseWhole .unquoted (.ofString text)).readsText
  · exact (walks_parseWholeTagged .unquoted (.ofString text)).readsText

/-- A text that ends too early is read as deep as its brackets allow. -/
example : callsOf (parsePattern (.ofString "[[x")).events = [0, 1, 2] ∧
    depthOf (parsePattern (.ofString "[[x")).events = openings .outside "[[x".toList + 1 := by
  decide +kernel

end Destructure
