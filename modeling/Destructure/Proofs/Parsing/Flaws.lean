import Destructure.Proofs.Parsing.Fails
import Destructure.Proofs.Parsing.Soundness

/-!
# Destructure.Proofs.Parsing.Flaws

Whenever reading a pattern fails, it fails for a flaw of the innermost part that was being read:
`fault_of_parsePattern`.

Design points:

* A `Part` is what can be unfinished when an error comes up: a pattern, an entry, or brackets with
  some of their contents. `Enters q s r` says which text `s` of a `q` may stand before an `r` in it.
* `Flaw q c e d` lists the errors of the part itself that starts at `c`. `Fault` adds the parts that
  were entered on the way, so an induction on it goes from the outside to the flaw.
* What the flaw says of the text is all that later proofs need: that the text before it can be
  completed, where its span lies, and that brackets before it are balanced.

Proof shape: as for `spelledBy_of_parsePattern`, each production has a lemma under the assumption
that inner patterns obey the law (`LaterFaulty`), and one induction on the text ahead ties them.
-/

namespace Destructure

open Text

variable {α : Type} {c d f : Cursor} {e : ParseError}

/-! ### The text between two places -/

/-- The text `s` stands between `c` and `d`. -/
structure Cursor.Between (c : Cursor) (s : List Char) (d : Cursor) : Prop where
  le : c ≤ d
  ahead : c.ahead = s ++ d.ahead

namespace Cursor.Between

variable {s t : List Char}

theorem behind (h : Between c s d) : d.behind = s.reverse ++ c.behind := by
  obtain ⟨w, ha, hb⟩ := h.le
  rw [hb, List.append_cancel_right (ha.symm.trans h.ahead)]

theorem refl (c : Cursor) : Between c [] c := ⟨c.le_refl, rfl⟩

theorem trans (h₁ : Between c s d) (h₂ : Between d t f) : Between c (s ++ t) f :=
  ⟨c.le_trans h₁.le h₂.le, by rw [h₁.ahead, h₂.ahead, List.append_assoc]⟩

theorem advance {x : Char} (hx : c.current = some x) : Between c [x] c.advance :=
  ⟨c.le_advance, ahead_of_current hx⟩

theorem cons {x : Char} (hx : c.current = some x) (h : Between c.advance s d) :
    Between c (x :: s) d := (advance hx).trans h

theorem exists_spaces (c : Cursor) : ∃ u, Spaces u ∧ Between c u c.skipSpace := by
  obtain ⟨u, hu, hc⟩ := c.spaces_before_skipSpace
  exact ⟨u, hu, c.le_skipSpace, hc⟩

theorem of_spaces {u r : List Char} {x : Char} (hu : Spaces u) (hx : isSpace x = false)
    (hc : c.ahead = u ++ x :: r) : Between c u c.skipSpace :=
  ⟨c.le_skipSpace, by rw [ahead_skipSpace hu hx hc, hc]⟩

theorem of_parseWord {w : String} (h : (parseWord c).Finds w d) : Between c w.toList d :=
  ⟨h.le, (word_of_parseWord h).2⟩

end Cursor.Between

open Cursor (Between)

/-! ### What an error says by its cause alone -/

namespace ParseError

/-- The character that must not stand where it does. -/
def Cause.found? : Cause → Option Char
  | unexpectedCharacter found _ => some found
  | invalidIdentifier found => some found
  | blankNotAllowed => some ','
  | _ => none

/-- The word or number that is refused as a whole. -/
def Cause.refused? : Cause → Option (List Char)
  | reservedConstructor name => some name.toList
  | reservedKey key => some key.toList
  | invalidNumber text => some text.toList
  | _ => none

@[simp] theorem within_within (e : ParseError) (p q : Production) :
    (e.within p).within q = e.within p := by
  simp [within]

end ParseError

open ParseError (here between)

/-! ### Parts of a pattern -/

/-- Brackets and what they are for. -/
inductive Bracket where
  | square
  | curly
  | round
  deriving DecidableEq, Repr

namespace Bracket

@[simp] def opening : Bracket → Char
  | square => '['
  | curly => '\x7b'
  | round => '('

@[simp] def closing : Bracket → Char
  | square => ']'
  | curly => '\x7d'
  | round => ')'

def production : Bracket → Production
  | square => .array
  | curly => .object
  | round => .tagged

/-- What may stand between the brackets. -/
def Contents : Bracket → List Char → Prop
  | square, t => ∃ ps, Derives (.slots ps) t
  | curly, t => ∃ es, Derives (.entries es) t
  | round, t => ∃ as v s w, t = v ++ s ++ w ∧ Spaces v ∧ Derives (.arguments as) s ∧ Spaces w

end Bracket

/-- What can be unfinished when an error comes up. -/
inductive Part where
  | pattern
  | entry
  | bracket (b : Bracket)

/-- Slots after which there is room for one more, or none: each of them has its separator. -/
inductive SlotsBefore (s : Series) (R : α → List Char → Prop) : List Char → Prop where
  | nil {u : List Char} : Spaces u → SlotsBefore s R u
  | blank {u t : List Char} : s.allowsBlanks = true → Spaces u → SlotsBefore s R t →
      SlotsBefore s R (u ++ s.separator :: t)
  | item {a : α} {u x w t : List Char} : Spaces u → R a x → Spaces w → SlotsBefore s R t →
      SlotsBefore s R (u ++ x ++ w ++ s.separator :: t)

/-- `Enters q s r`: with `s` read of a part `q`, a part `r` of it may start. -/
inductive Enters : Part → List Char → Part → Prop where
  | array : Enters .pattern [] (.bracket .square)
  | object : Enters .pattern [] (.bracket .curly)
  | tagged {name : String} {u : List Char} : IsName name → Spaces u →
      Enters .pattern (name.toList ++ u) (.bracket .round)
  | positional {v : List Char} : Spaces v → Enters (.bracket .round) ('(' :: v) (.bracket .square)
  | keyed {v : List Char} : Spaces v → Enters (.bracket .round) ('(' :: v) (.bracket .curly)
  | element {t : List Char} : SlotsBefore .array Pattern.SpelledBy t →
      Enters (.bracket .square) ('[' :: t) .pattern
  | item {t : List Char} : SlotsBefore .object Entry.SpelledBy t →
      Enters (.bracket .curly) ('\x7b' :: t) .entry
  | value {key : String} {u v : List Char} : isWord key = true → key ≠ "_" → Spaces u →
      Spaces v → Enters .entry (key.toList ++ u ++ ':' :: v) .pattern

/-- `Opens q s`: with `s` read of a part `q`, nothing inside of it is unfinished. -/
inductive Opens : Part → List Char → Prop where
  | pattern : Opens .pattern []
  | entry : Opens .entry []
  | bracket {b : Bracket} {t : List Char} : b.Contents t → Opens (.bracket b) (b.opening :: t)

/-! ### Flaws -/

/-- `Flaw q c e d`: the part `q` that starts at `c` has the error `e`, and reading stops at `d`. -/
inductive Flaw : Part → Cursor → ParseError → Cursor → Prop where
  /-- A character that cannot go on. -/
  | stray {q : Part} {c d : Cursor} {s : List Char} {x : Char} {cause : ParseError.Cause}
      {p : Production} : Opens q s → Between c s d → d.current = some x → cause.found? = some x →
      Flaw q c ((here cause d).within p) d
  /-- The text ends where the part has to go on. -/
  | ends {q : Part} {c d : Cursor} {s : List Char} {expected : String} {p : Production} :
      Opens q s → Between c s d → d.ahead = [] →
      Flaw q c ((here (.unexpectedEnd expected) d).within p) d
  /-- The text ends before the closing bracket. -/
  | unclosed {b : Bracket} {c d : Cursor} {t : List Char} : b.Contents t →
      Between c (b.opening :: t) d → d.ahead = [] →
      Flaw (.bracket b) c
        ((here (.unclosed b.opening b.closing c.currentSpan) d).within b.production) d
  /-- The text ends before the closing quote. -/
  | unterminated {c : Cursor} {quote : Char} : quote = '\'' ∨ quote = '"' →
      c.current = some quote → body? quote c.advance.ahead = none →
      Flaw .pattern c ((between (.unterminatedString quote) c c.toEnd).within .string) c.toEnd
  /-- A word or a number that is refused as a whole. -/
  | token {q : Part} {c d f : Cursor} {w : List Char} {cause : ParseError.Cause}
      {p : Production} : Between c w d → cause.refused? = some w →
      Flaw q c ((between cause c d).within p) f

/-- A flaw of the part itself, or of a part that is entered on the way. -/
inductive Fault : Part → Cursor → ParseError → Cursor → Prop where
  | here {q : Part} {c d : Cursor} {e : ParseError} : Flaw q c e d → Fault q c e d
  | inside {q r : Part} {c d f : Cursor} {s : List Char} {e : ParseError} : Enters q s r →
      Between c s f → Fault r f e d → Fault q c e d

/-- An error of a part tells in which production it came up. -/
theorem Fault.within_eq {q : Part} (h : Fault q c e d) (p : Production) : e.within p = e := by
  induction h with
  | here hflaw => cases hflaw <;> exact ParseError.within_within _ _ _
  | inside _ _ _ ih => exact ih

/-! ### Series -/

/-- The slots make a list by themselves and with one more. -/
theorem SlotsBefore.exists_slots {s : Series} {R : α → List Char → Prop} {t : List Char}
    (h : SlotsBefore s R t) :
    ∃ slots, SlotTexts s R slots t ∧ ∀ a x, R a x → SlotTexts s R (slots ++ [some a]) (t ++ x) := by
  induction h with
  | nil hu =>
    refine ⟨[], .nil hu, fun a x hx => ?_⟩
    simpa using SlotTexts.last (s := s) hu hx spaces_nil
  | blank hb hu _ ih =>
    obtain ⟨slots, hslots, hmore⟩ := ih
    refine ⟨none :: slots, .blank hb hu hslots, fun a x hx => ?_⟩
    simpa using SlotTexts.blank hb hu (hmore a x hx)
  | @item a _ _ _ _ hu hx hw _ ih =>
    obtain ⟨slots, hslots, hmore⟩ := ih
    refine ⟨some a :: slots, .item hu hx hw hslots, fun b y hy => ?_⟩
    simpa using SlotTexts.item hu hx hw (hmore b y hy)

/-- What a list itself can be wrong about, after some slots. -/
def SeriesFlaw (s : Series) (span : Span) (g : Cursor) (e : ParseError) : Prop :=
  (g.ahead = [] ∧ s.unclosed span g = e) ∨
    ∃ x, g.current = some x ∧
      ((x = s.separator ∧ s.emptySlot g = e) ∨ s.unseparated x g = e)

/-- From `d` on a list goes wrong: for a flaw of its own after some slots, or since an element after
them fails. -/
def SeriesFails (s : Series) (span : Span) (R : α → List Char → Prop)
    (element : (d : Cursor) → c ≤ d → Step α d) (d : Cursor) (e : ParseError) (f : Cursor) : Prop :=
  (∃ slots t, SlotTexts s R slots t ∧ Between d t f ∧ SeriesFlaw s span f e) ∨
    ∃ t, ∃ g : Cursor, ∃ hg : c ≤ g.skipSpace, SlotsBefore s R t ∧ Between d t g.skipSpace ∧
      (element g.skipSpace hg).Fails e f

section

variable {s : Series} {span : Span} {R : α → List Char → Prop}
  {element : (d : Cursor) → c ≤ d → Step α d}

/-- A list that goes wrong after an empty slot goes wrong. -/
theorem SeriesFails.blank {u : List Char} (hb : s.allowsBlanks = true) (hu : Spaces u)
    (hd : Between d (u ++ [s.separator]) f) {g : Cursor}
    (h : SeriesFails s span R element f e g) : SeriesFails s span R element d e g := by
  rcases h with ⟨slots, t, ht, hbt, hflaw⟩ | ⟨t, k, hk, ht, hbt, hfail⟩
  · exact .inl ⟨none :: slots, _, .blank hb hu ht, by simpa using hd.trans hbt, hflaw⟩
  · exact .inr ⟨_, k, hk, .blank hb hu ht, by simpa using hd.trans hbt, hfail⟩

/-- A list that goes wrong after an element goes wrong. -/
theorem SeriesFails.item {a : α} {u x w : List Char} (hu : Spaces u) (hx : R a x) (hw : Spaces w)
    (hd : Between d (u ++ x ++ w ++ [s.separator]) f) {g : Cursor}
    (h : SeriesFails s span R element f e g) : SeriesFails s span R element d e g := by
  rcases h with ⟨slots, t, ht, hbt, hflaw⟩ | ⟨t, k, hk, ht, hbt, hfail⟩
  · exact .inl ⟨some a :: slots, _, .item hu hx hw ht, by simpa using hd.trans hbt, hflaw⟩
  · exact .inr ⟨_, k, hk, .item hu hx hw ht, by simpa using hd.trans hbt, hfail⟩

theorem seriesFails_of_parseSlots
    (helement : ∀ (d : Cursor) (h : c ≤ d) (a : α) (e : Cursor), (element d h).Finds a e →
      ∃ x, d.ahead = x ++ e.ahead ∧ R a x)
    {hd : c ≤ d} (h : (parseSlots s span element d hd).Fails e f) :
    SeriesFails s span R element d e f := by
  induction hn : d.ahead.length using Nat.strong_induction_on generalizing d with
  | _ n ih =>
    subst hn
    obtain ⟨u, hu, hdu⟩ := Between.exists_spaces d
    rcases fails_parseSlots.1 h with ⟨hend, he, rfl⟩ | ⟨x, hcd, hx, hxt, hslot | hrest⟩
    · exact .inl ⟨[], u, .nil hu, hdu, .inl ⟨hend, he⟩⟩
    · rcases fails_parseSlot.1 hslot with ⟨rfl, -, he, rfl⟩ | ⟨-, hfail⟩
      · exact .inl ⟨[], u, .nil hu, hdu, .inr ⟨_, hx, .inl ⟨rfl, he⟩⟩⟩
      · exact .inr ⟨u, d, hcd, .nil hu, hdu, hfail⟩
    · obtain ⟨slot, g, hslot, hafter⟩ := hrest
      obtain ⟨w, hw, hgw⟩ := Between.exists_spaces g
      have hlt {y : Char} (hy : g.skipSpace.current = some y) :
          g.skipSpace.advance.ahead.length < d.ahead.length := by
        obtain ⟨rest, hr⟩ := Cursor.current_eq_some.1 hy
        exact Nat.lt_of_lt_of_le (Cursor.length_ahead_advance_lt hr) (Cursor.length_ahead_le
          (d.le_trans (d.le_trans d.le_skipSpace hslot.le) g.le_skipSpace))
      rcases finds_parseSlot.1 hslot with ⟨rfl, hb, rfl, rfl⟩ | ⟨-, a, ha, rfl⟩
      -- An empty slot takes nothing, so the separator that showed it follows.
      · have hstay := d.skipSpace_skipSpace
        rw [hstay] at hafter hlt
        rcases hafter with ⟨hend, -⟩ | ⟨y, hy, -, ⟨hys, -⟩ | ⟨h', -, hmore⟩⟩
        · simp [Cursor.current, hend] at hx
        · exact absurd (Option.some.inj (hy.symm.trans hx)) hys
        · exact (ih _ (hlt hx) hmore rfl).blank hb hu (hdu.trans (.advance hx))
      · obtain ⟨x', hx', hR⟩ := helement _ _ _ _ ha
        have hitem : Between d (u ++ x' ++ w) g.skipSpace :=
          (hdu.trans ⟨ha.le, hx'⟩).trans hgw
        rcases hafter with ⟨hend, he, rfl⟩ | ⟨y, hy, -, ⟨-, he, rfl⟩ | ⟨h', rfl, hmore⟩⟩
        · exact .inl ⟨[some a], _, .last hu hR hw, hitem, .inl ⟨hend, he⟩⟩
        · exact .inl ⟨[some a], _, .last hu hR hw, hitem, .inr ⟨y, hy, .inr he⟩⟩
        · exact (ih _ (hlt hy) hmore rfl).item hu hR hw (hitem.trans (.advance hy))

end

/-- The flaw of a list is one of its brackets. -/
theorem flaw_of_seriesFlaw {s : Series} {b : Bracket} {t : List Char}
    (hopen : s.opening = b.opening) (hclose : s.terminator = b.closing)
    (hprod : s.production = b.production) (hsep : s.separator = ',') (ht : b.Contents t)
    (hbt : Between c (b.opening :: t) d) (h : SeriesFlaw s c.currentSpan d e) :
    Flaw (.bracket b) c e d := by
  rcases h with ⟨hend, rfl⟩ | ⟨x, hx, ⟨rfl, rfl⟩ | rfl⟩
  · rw [Series.unclosed, hopen, hclose, hprod]
    exact .unclosed ht hbt hend
  · exact .stray (.bracket ht) hbt hx (by rw [hsep]; rfl)
  · exact .stray (.bracket ht) hbt hx rfl

/-! ### Productions -/

variable {inner : Later c}

/-- What the parser for inner patterns fails for is a fault of a pattern. -/
def LaterFaulty (inner : Later c) : Prop :=
  ∀ (d : Cursor) (h : c < d) (e : ParseError) (f : Cursor), (inner d h).Fails e f →
    Fault .pattern d.skipSpace e f

/-- A word that cannot be read is a flaw of the part that it would have started. -/
theorem flaw_of_parseWord {q : Part} (hq : Opens q []) (p : Production)
    (h : (parseWord c).Fails e f) : Flaw q c (e.within p) f := by
  obtain ⟨rfl, ⟨hend, rfl⟩ | ⟨x, hx, -, rfl⟩⟩ := fails_parseWord.1 h
  · exact .ends hq (.refl c) hend
  · exact .stray hq (.refl c) hx rfl

theorem fault_of_parseElements (hsound : LaterSound inner) (hinner : LaterFaulty inner)
    (hc : c.current = some '[') {h : c < c.advance} (hf : (parseElements c h inner).Fails e f) :
    Fault (.bracket .square) c e f := by
  simp only [parseElements, parseSeries, Step.fails_since, Step.fails_map] at hf
  rcases seriesFails_of_parseSlots (fun d hd a e => hsound d _ a e) hf with
    ⟨slots, t, ht, hbt, hflaw⟩ | ⟨t, g, hg, ht, hbt, hfail⟩
  · exact .here (flaw_of_seriesFlaw rfl rfl rfl rfl ⟨_, derives_slots ht⟩ (hbt.cons hc) hflaw)
  · have hfault := hinner _ _ _ _ hfail
    rw [Cursor.skipSpace_skipSpace] at hfault
    exact .inside (.element ht) (hbt.cons hc) hfault

theorem fault_of_parseEntry (hinner : LaterFaulty inner) (h : (parseEntry c inner).Fails e f) :
    Fault .entry c e f := by
  simp only [parseEntry, Step.fails_bind, Step.fails_within, Step.finds_within] at h
  obtain ⟨err, hword, rfl⟩ | ⟨key, d, hcd, hword, h⟩ := h
  · exact .here (flaw_of_parseWord .entry .entry hword)
  · have hkey := Between.of_parseWord hword
    obtain ⟨u, hu, hdu⟩ := Between.exists_spaces d
    by_cases hcolon : d.skipSpace.current = some ':'
    · simp only [hcolon, dite_true] at h
      by_cases hany : key = "_"
      · simp only [hany, if_true, Step.fails_fail] at h
        obtain ⟨rfl, rfl⟩ := h
        exact .here (.token hkey (by rw [hany]; rfl))
      · simp only [hany, if_false, Step.fails_since, Step.fails_map] at h
        obtain ⟨v, hv, hvd⟩ := Between.exists_spaces d.skipSpace.advance
        exact .inside (.value (word_of_parseWord hword).1 hany hu hv)
          ((hkey.trans hdu).trans (hvd.cons hcolon)) (hinner _ _ _ _ h)
    · simp only [hcolon, dite_false] at h
      by_cases hres : isReserved key = true
      · simp only [hres, if_true, Step.fails_fail] at h
        obtain ⟨rfl, rfl⟩ := h
        exact .here (.token hkey rfl)
      · simp [hres] at h

theorem fault_of_parseEntries (hsound : LaterSound inner) (hinner : LaterFaulty inner)
    (hc : c.current = some '\x7b') {h : c < c.advance}
    (hf : (parseEntries c h inner).Fails e f) : Fault (.bracket .curly) c e f := by
  simp only [parseEntries, parseSeries, Step.fails_since, Step.fails_map] at hf
  rcases seriesFails_of_parseSlots (fun d hd a e ha =>
    entry_of_parseEntry (fun f hf p g hp => hsound f _ p g hp) ha) hf with
    ⟨slots, t, ht, hbt, hflaw⟩ | ⟨t, g, hg, ht, hbt, hfail⟩
  · exact .here (flaw_of_seriesFlaw rfl rfl rfl rfl ⟨_, derives_entries ht⟩ (hbt.cons hc) hflaw)
  · exact .inside (.item ht) (hbt.cons hc)
      (fault_of_parseEntry (fun f hf e g hfail => hinner f _ e g hfail) hfail)

theorem fault_of_parseArguments (hsound : LaterSound inner) (hinner : LaterFaulty inner)
    (h : (parseArguments c inner).Fails e f) :
    Fault (.bracket .square) c e f ∨ Fault (.bracket .curly) c e f := by
  unfold parseArguments at h
  by_cases hopen : c.current = some '['
  · rw [dif_pos hopen, Step.fails_map] at h
    exact .inl (fault_of_parseElements hsound hinner hopen h)
  · by_cases hopen' : c.current = some '\x7b'
    · rw [dif_neg hopen, dif_pos hopen', Step.fails_map] at h
      exact .inr (fault_of_parseEntries hsound hinner hopen' h)
    · rw [dif_neg hopen, dif_neg hopen'] at h
      exact absurd h (Step.not_fails_done _)

/-- The parenthesis that is open at `b` has been read up to `c`, and it is not closed there. -/
theorem flaw_of_parseClosing {b : Cursor} {name : String} {as : Arguments} {v s : List Char}
    (hv : Spaces v) (hs : Derives (.arguments as) s) (hbc : Between b ('(' :: (v ++ s)) c)
    (h : (parseClosing name b.currentSpan as c).Fails e f) : Flaw (.bracket .round) b e f := by
  obtain ⟨w, hw, hcw⟩ := Between.exists_spaces c
  have ht : Bracket.round.Contents (v ++ s ++ w) := ⟨as, v, s, w, rfl, hv, hs, hw⟩
  have hbt : Between b ('(' :: (v ++ s ++ w)) c.skipSpace := hbc.trans hcw
  unfold parseClosing at h
  dsimp only at h
  split at h
  · rename_i x hx
    split at h
    · exact absurd h (Step.not_fails_done _)
    · obtain ⟨rfl, rfl⟩ := (Step.fails_fail _).1 h
      rw [ParseError.unexpected_of_current _ hx]
      exact .stray (.bracket ht) hbt hx rfl
  · rename_i hend
    obtain ⟨rfl, rfl⟩ := (Step.fails_fail _).1 h
    exact .unclosed ht hbt (List.head?_eq_none_iff.1 hend)

/-- The parenthesis that is open at `b` has been read up to `c`, and what follows there fails. -/
theorem fault_of_parenthesis (hsound : LaterSound inner) (hinner : LaterFaulty inner) {b : Cursor}
    {name : String} {v : List Char} (hv : Spaces v) (hbc : Between b ('(' :: v) c)
    (h : (parseArguments c inner).Fails e f ∨ ∃ as g, (parseArguments c inner).Finds as g ∧
      (parseClosing name b.currentSpan as g).Fails e f) : Fault (.bracket .round) b e f := by
  rcases h with hargs | ⟨as, g, has, hclose⟩
  · rcases fault_of_parseArguments hsound hinner hargs with hsquare | hcurly
    · exact .inside (.positional hv) hbc hsquare
    · exact .inside (.keyed hv) hbc hcurly
  · obtain ⟨s, hs, hargs⟩ := arguments_of_parseArguments hsound has
    exact .here (flaw_of_parseClosing hv hargs (hbc.trans ⟨has.le, hs⟩) hclose)

/-- With the parenthesis open, a constructor pattern fails in its name or between the parentheses,
and its errors need no production from outside. -/
theorem fault_of_parseTagged_of_parenthesis (hsound : LaterSound inner)
    (hinner : LaterFaulty inner) {acceptWord : Bool} {name : String}
    (hword : (parseWord c).Finds name d) (hopen : d.skipSpace.current = some '(')
    (h : (parseTagged acceptWord c inner).Fails e f) : Fault .pattern c e f := by
  have hname := Between.of_parseWord hword
  obtain ⟨u, hu, hdu⟩ := Between.exists_spaces d
  simp only [parseTagged, Step.fails_bind] at h
  obtain hfails | ⟨name', d', hcd, hword', h⟩ := h
  · exact absurd hfails (Step.not_fails_of_finds hword)
  · obtain ⟨rfl, rfl⟩ := hword.unique hword'
    simp only [hopen, dite_true] at h
    by_cases hres : isReserved name = true
    · simp only [hres, if_true, Step.fails_fail] at h
      obtain ⟨rfl, rfl⟩ := h
      exact .here (.token hname rfl)
    · simp only [hres, Bool.false_eq_true, if_false, Step.fails_since, Step.fails_after,
        Step.fails_bind] at h
      obtain ⟨v, hv, hvd⟩ := Between.exists_spaces d.skipSpace.advance
      have hfault : Fault (.bracket .round) d.skipSpace e f :=
        fault_of_parenthesis (fun f hf p g hp => hsound f _ p g hp)
          (fun f hf e g hfail => hinner f _ e g hfail) hv (hvd.cons hopen)
          (h.imp_right (by
            rintro ⟨as, g, -, has, hclose⟩
            exact ⟨as, g, has, hclose⟩))
      exact .inside (.tagged ⟨(word_of_parseWord hword).1, by simpa using hres⟩ hu)
        (hname.trans hdu) hfault

theorem fault_of_parseTagged (hsound : LaterSound inner) (hinner : LaterFaulty inner)
    (h : (parseTagged true c inner).Fails e f) : Fault .pattern c (e.within .pattern) f := by
  have hcases := h
  simp only [parseTagged, Step.fails_bind] at hcases
  obtain hword | ⟨name, d, hcd, hword, hcases⟩ := hcases
  · exact .here (flaw_of_parseWord .pattern .pattern hword)
  · by_cases hopen : d.skipSpace.current = some '('
    · have hfault := fault_of_parseTagged_of_parenthesis hsound hinner hword hopen h
      rw [hfault.within_eq]
      exact hfault
    · simp [hopen] at hcases

theorem flaw_of_parseNumber (h : (parseNumber c).Fails e f) : Flaw .pattern c e f := by
  obtain ⟨-, rfl, rfl⟩ := fails_parseNumber.1 h
  have hrun : Between c (c.ahead.takeWhile isNumberPart) (c.skipWhile isNumberPart) :=
    ⟨c.le_skipWhile _, List.takeWhile_append_dropWhile.symm⟩
  exact .token hrun (by simp [ParseError.Cause.refused?])

/-- Every error of a pattern, of whatever kind, is a fault of the grammar. -/
theorem fault_of_parseKind (hsound : LaterSound inner) (hinner : LaterFaulty inner)
    (h : (parseKind c inner).Fails e f) : Fault .pattern c (e.within .pattern) f := by
  unfold parseKind at h
  split at h
  · rename_i hx
    have hend : c.ahead = [] := List.head?_eq_none_iff.1 hx
    obtain ⟨rfl, rfl⟩ := (Step.fails_fail _).1 h
    rw [ParseError.unexpected_of_ahead_nil _ hend]
    exact .here (.ends .pattern (.refl c) hend)
  · rename_i x hx
    split at h
    · rename_i harray
      have hfault := fault_of_parseElements hsound hinner (harray ▸ hx) (Step.fails_map.1 h)
      rw [hfault.within_eq]
      exact .inside .array (.refl c) hfault
    split at h
    · rename_i hobject
      have hfault := fault_of_parseEntries hsound hinner (hobject ▸ hx) (Step.fails_map.1 h)
      rw [hfault.within_eq]
      exact .inside .object (.refl c) hfault
    split at h
    · rename_i hquote
      obtain ⟨hbody, rfl, rfl⟩ := fails_parseString.1 h
      rw [ParseError.within_within]
      exact .here (.unterminated hquote hx hbody)
    split at h
    · have hfault := Fault.here (flaw_of_parseNumber h)
      rw [hfault.within_eq]
      exact hfault
    split at h
    · exact fault_of_parseTagged hsound hinner h
    · obtain ⟨rfl, rfl⟩ := (Step.fails_fail _).1 h
      rw [ParseError.unexpected_of_current _ hx]
      exact .here (.stray .pattern (.refl c) hx rfl)

theorem fails_parsePattern :
    (parsePattern c).Fails e f ↔
      ∃ err, (parseKind c.skipSpace fun e _ => parsePattern e).Fails err f ∧
        err.within .pattern = e := by
  rw [parsePattern]
  simp

/-- **Reading a pattern fails for a fault of the pattern**, which starts after the white space. -/
theorem fault_of_parsePattern (h : (parsePattern c).Fails e f) :
    Fault .pattern c.skipSpace e f := by
  induction hn : c.ahead.length using Nat.strong_induction_on generalizing c e f with
  | _ n ih =>
    subst hn
    obtain ⟨err, hkind, rfl⟩ := fails_parsePattern.1 h
    have hinner : LaterFaulty (c := c.skipSpace) fun e _ => parsePattern e := fun d hd _ _ hq =>
      ih _ (Nat.lt_of_lt_of_le (Cursor.length_ahead_lt hd)
        (Cursor.length_ahead_le c.le_skipSpace)) hq rfl
    exact fault_of_parseKind laterSound_parsePattern hinner hkind

theorem laterFaulty_parsePattern : LaterFaulty (c := c) fun e _ => parsePattern e :=
  fun _ _ _ _ h => fault_of_parsePattern h

theorem fails_parseWhole :
    (parseWhole c).Fails e f ↔
      (parsePattern c).Fails e f ∨ ∃ p, (parsePattern c).Finds p f ∧ f.ahead ≠ [] ∧
        ParseError.between .trailingInput f f.toEnd = e := by
  simp only [parseWhole, Step.fails_bind, Step.fails_map, fails_parseEnd]
  refine or_congr_right ⟨?_, ?_⟩
  · rintro ⟨p, d, -, hp, hend, he, rfl⟩
    exact ⟨p, hp, hend, he⟩
  · rintro ⟨p, hp, hend, he⟩
    exact ⟨p, f, hp.le, hp, hend, he, rfl⟩

end Destructure
