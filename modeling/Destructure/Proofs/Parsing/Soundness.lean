import Destructure.Proofs.Parsing.Tokens

/-!
# Destructure.Proofs.Parsing.Soundness

Whatever the pattern parser finds is spelled by the text that it read: `spelledBy_of_parsePattern`.

Proof shape:

* `SlotTexts` is what the texts of a list are if each element is known to be of some kind `R`.
  `slotTexts_of_parseSlots` proves it of the list parser for every element parser at once, by
  induction on the length of the text ahead.
* Every production is sound if the parser for inner patterns is (`LaterSound`). So the only
  induction over patterns is the one at the end, and it is on the length of the text ahead too.
-/

namespace Destructure

open Text

variable {α : Type} {c : Cursor}

/-! ### Series -/

/-- The text of the slots of a list before its terminator, where `R` tells which text an element may
have. -/
inductive SlotTexts (s : Series) (R : α → List Char → Prop) :
    List (Option α) → List Char → Prop where
  | nil {u : List Char} : Spaces u → SlotTexts s R [] u
  | last {a : α} {u x w : List Char} : Spaces u → R a x → Spaces w →
      SlotTexts s R [some a] (u ++ x ++ w)
  | blank {slots : List (Option α)} {u t : List Char} : s.allowsBlanks = true → Spaces u →
      SlotTexts s R slots t → SlotTexts s R (none :: slots) (u ++ s.separator :: t)
  | item {a : α} {slots : List (Option α)} {u x w t : List Char} : Spaces u → R a x → Spaces w →
      SlotTexts s R slots t → SlotTexts s R (some a :: slots) (u ++ x ++ w ++ s.separator :: t)

/-- The slots of a list are found in their texts, if its elements are. -/
theorem slotTexts_of_parseSlots {s : Series} {span : Span} {R : α → List Char → Prop}
    {element : (d : Cursor) → c ≤ d → Step α d}
    (helement : ∀ (d : Cursor) (h : c ≤ d) (a : α) (e : Cursor), (element d h).Finds a e →
      ∃ x, d.ahead = x ++ e.ahead ∧ R a x)
    {d f : Cursor} {hd : c ≤ d} {slots : List (Option α)}
    (h : (parseSlots s span element d hd).Finds slots f) :
    ∃ t, d.ahead = t ++ s.terminator :: f.ahead ∧ SlotTexts s R slots t := by
  induction hn : d.ahead.length using Nat.strong_induction_on generalizing d slots with
  | _ n ih =>
    subst hn
    obtain ⟨u, hu, hud⟩ := d.spaces_before_skipSpace
    rcases finds_parseSlots.1 h with ⟨hx, rfl, rfl⟩ | ⟨x, slot, e, hde, hx, hne, hslot, hrest⟩
    · exact ⟨u, by rw [hud, Cursor.ahead_of_current hx], .nil hu⟩
    · obtain ⟨w, hw, hwe⟩ := e.spaces_before_skipSpace
      have hlt {y : Char} (hy : e.skipSpace.current = some y) :
          e.skipSpace.advance.ahead.length < d.ahead.length := by
        obtain ⟨rest, hr⟩ := Cursor.current_eq_some.1 hy
        exact Nat.lt_of_lt_of_le (Cursor.length_ahead_advance_lt hr) (Cursor.length_ahead_le
          (d.le_trans (d.le_trans d.le_skipSpace hslot.le) e.le_skipSpace))
      rcases finds_parseSlot.1 hslot with ⟨rfl, hb, rfl, rfl⟩ | ⟨-, a, ha, rfl⟩
      -- An empty slot takes nothing, so what follows it is the separator that showed it.
      · have hstay := Cursor.skipSpace_eq_self hx (Cursor.not_isSpace_of_current_skipSpace hx)
        rw [hstay] at hrest
        rcases hrest with ⟨hy, -⟩ | ⟨more, h', hy, -, hmore, rfl⟩
        · exact absurd (Option.some.inj (hx.symm.trans hy)) hne
        · obtain ⟨t, ht, hslots⟩ := ih _ (hstay ▸ hlt (hstay.symm ▸ hy)) hmore rfl
          refine ⟨u ++ s.separator :: t, ?_, .blank hb hu hslots⟩
          rw [hud, Cursor.ahead_of_current hy, ht]
          simp
      · obtain ⟨x', hx', hR⟩ := helement _ _ _ _ ha
        rcases hrest with ⟨hy, rfl, rfl⟩ | ⟨more, h', hy, -, hmore, rfl⟩
        · refine ⟨u ++ x' ++ w, ?_, .last hu hR hw⟩
          rw [hud, hx', hwe, Cursor.ahead_of_current hy]
          simp
        · obtain ⟨t, ht, hslots⟩ := ih _ (hlt hy) hmore rfl
          refine ⟨u ++ x' ++ w ++ s.separator :: t, ?_, .item hu hR hw hslots⟩
          rw [hud, hx', hwe, Cursor.ahead_of_current hy, ht]
          simp

/-! ### From the slots of a series to a list -/

/-- An entry with white space after it, which is what `parseEntry` reads. -/
def Entry.SpelledBy (e : Entry) (x : List Char) : Prop :=
  ∃ s w, x = s ++ w ∧ Derives (.entry e) s ∧ Spaces w

/-- The slots of an array, each read with white space around it, spell its elements. -/
theorem derives_slots {slots : List (Option Pattern)} {t : List Char}
    (h : SlotTexts .array Pattern.SpelledBy slots t) :
    Derives (.slots (slots.map (·.getD .blank))) t := by
  induction h with
  | nil hu => exact .noSlot hu
  | last hu hx hw =>
    obtain ⟨u', s, w', rfl, hu', hs, hw'⟩ := hx
    simpa using Derives.lastSlot (hu.append hu') hs (hw'.append hw)
  | blank _ hu _ ih => exact .emptySlot hu ih
  | item hu hx hw _ ih =>
    obtain ⟨u', s, w', rfl, hu', hs, hw'⟩ := hx
    simpa [Series.array] using Derives.filledSlot (hu.append hu') hs (hw'.append hw) ih

/-- The slots of an object spell its entries, since none of them is empty. -/
theorem derives_entries {slots : List (Option Entry)} {t : List Char}
    (h : SlotTexts .object Entry.SpelledBy slots t) :
    Derives (.entries (slots.filterMap id)) t := by
  induction h with
  | nil hu => exact .noEntry hu
  | last hu hx hw =>
    obtain ⟨s, w', rfl, hs, hw'⟩ := hx
    simpa using Derives.lastEntry hu hs (hw'.append hw)
  | blank hb => exact absurd hb (by decide)
  | item hu hx hw _ ih =>
    obtain ⟨s, w', rfl, hs, hw'⟩ := hx
    simpa [Series.object] using Derives.moreEntries hu hs (hw'.append hw) ih

/-! ### Productions -/

variable {inner : Later c}

/-- What the parser for inner patterns finds is the spelling of a pattern, with white space. -/
def LaterSound (inner : Later c) : Prop :=
  ∀ (d : Cursor) (h : c < d) (p : Pattern) (e : Cursor), (inner d h).Finds p e →
    ∃ x, d.ahead = x ++ e.ahead ∧ p.SpelledBy x

/-- Between square brackets, the elements are found that the text there spells. -/
theorem slots_of_parseElements (hinner : LaterSound inner) {h : c < c.advance} {ps : List Pattern}
    {e : Cursor} (hf : (parseElements c h inner).Finds ps e) :
    ∃ t, c.advance.ahead = t ++ ']' :: e.ahead ∧ Derives (.slots ps) t := by
  simp only [parseElements, parseSeries, Step.finds_since, Step.finds_map] at hf
  obtain ⟨slots, hslots, rfl⟩ := hf
  obtain ⟨t, ht, hst⟩ := slotTexts_of_parseSlots (fun d hd a e => hinner d _ a e) hslots
  exact ⟨t, ht, derives_slots hst⟩

/-- An entry is found where the text spells it: a key, with a pattern after a colon or without one.
-/
theorem entry_of_parseEntry (hinner : LaterSound inner) {entry : Entry} {e : Cursor}
    (h : (parseEntry c inner).Finds entry e) :
    ∃ x, c.ahead = x ++ e.ahead ∧ entry.SpelledBy x := by
  simp only [parseEntry, Step.finds_bind, Step.finds_within] at h
  obtain ⟨key, d, hd, hword, h⟩ := h
  obtain ⟨hkey, hcd⟩ := word_of_parseWord hword
  obtain ⟨u, hu, hud⟩ := d.spaces_before_skipSpace
  by_cases hcolon : d.skipSpace.current = some ':'
  · simp only [hcolon, dite_true] at h
    by_cases hany : key = "_"
    · simp [hany] at h
    · simp only [hany, if_false, Step.finds_since, Step.finds_map] at h
      obtain ⟨p, hp, rfl⟩ := h
      obtain ⟨x, hx, v, s, w, rfl, hv, hs, hw⟩ := hinner _ _ _ _ hp
      refine ⟨key.toList ++ u ++ ':' :: (v ++ s) ++ w, ?_, _, w, rfl,
        .explicit hkey hany hu hv hs, hw⟩
      rw [hcd, hud, Cursor.ahead_of_current hcolon, hx]
      simp
  · simp only [hcolon, dite_false] at h
    by_cases hres : isReserved key = true
    · simp [hres] at h
    · simp only [hres, Bool.false_eq_true, if_false, Step.finds_done] at h
      obtain ⟨rfl, rfl⟩ := h
      refine ⟨key.toList ++ u, by rw [hcd, hud]; simp, _, u, rfl,
        .shorthand ⟨hkey, by simpa using hres⟩, hu⟩

/-- Between curly brackets, the entries are found that the text there spells. -/
theorem entries_of_parseEntries (hinner : LaterSound inner) {h : c < c.advance} {es : List Entry}
    {e : Cursor} (hf : (parseEntries c h inner).Finds es e) :
    ∃ t, c.advance.ahead = t ++ '\x7d' :: e.ahead ∧ Derives (.entries es) t := by
  simp only [parseEntries, parseSeries, Step.finds_since, Step.finds_map] at hf
  obtain ⟨slots, hslots, rfl⟩ := hf
  obtain ⟨t, ht, hst⟩ := slotTexts_of_parseSlots
    (fun d hd a e ha => entry_of_parseEntry (fun f hf p g hp => hinner f _ p g hp) ha) hslots
  exact ⟨t, ht, derives_entries hst⟩

/-- The arguments of a constructor pattern are found where the text spells them, and there are none
if neither bracket stands there. -/
theorem arguments_of_parseArguments (hinner : LaterSound inner) {as : Arguments} {e : Cursor}
    (h : (parseArguments c inner).Finds as e) :
    ∃ s, c.ahead = s ++ e.ahead ∧ Derives (.arguments as) s := by
  unfold parseArguments at h
  by_cases hopen : c.current = some '['
  · rw [dif_pos hopen] at h
    obtain ⟨ps, hps, rfl⟩ := Step.finds_map.1 h
    obtain ⟨t, ht, hslots⟩ := slots_of_parseElements hinner hps
    exact ⟨'[' :: (t ++ [']']), by rw [Cursor.ahead_of_current hopen, ht]; simp,
      .positional hslots⟩
  · by_cases hopen' : c.current = some '\x7b'
    · rw [dif_neg hopen, dif_pos hopen'] at h
      obtain ⟨es, hes, rfl⟩ := Step.finds_map.1 h
      obtain ⟨t, ht, hentries⟩ := entries_of_parseEntries hinner hes
      exact ⟨'\x7b' :: (t ++ ['\x7d']), by rw [Cursor.ahead_of_current hopen', ht]; simp,
        .keyed hentries⟩
    · rw [dif_neg hopen, dif_neg hopen'] at h
      obtain ⟨rfl, rfl⟩ := (Step.finds_done _).1 h
      exact ⟨[], rfl, .unspecified⟩

/-- Nothing but white space stands before the parenthesis that closes a constructor pattern. -/
theorem closing_of_parseClosing {name : String} {span : Span} {as : Arguments} {p : Pattern}
    {e : Cursor} (h : (parseClosing name span as c).Finds p e) :
    p = .tagged name as ∧ ∃ w, Spaces w ∧ c.ahead = w ++ ')' :: e.ahead := by
  obtain ⟨w, hw, hwc⟩ := c.spaces_before_skipSpace
  simp only [parseClosing] at h
  split at h
  · rename_i x hx
    split at h
    · rename_i hclose
      obtain ⟨rfl, rfl⟩ := (Step.finds_done _).1 h
      refine ⟨rfl, w, hw, ?_⟩
      rw [hwc, Cursor.ahead_of_current hx, hclose]
    · exact absurd h (Step.not_finds_fail _)
  · exact absurd h (Step.not_finds_fail _)

/-- Every word spells a pattern: a wildcard, a constant or a binder. -/
theorem derives_ofWord {w : String} (h : isWord w = true) :
    Derives (.pattern (.ofWord w)) w.toList := by
  unfold Pattern.ofWord
  by_cases hany : w = "_"
  · subst hany
    exact .wildcard
  · rw [if_neg hany]
    cases hc : Constant.ofWord? w with
    | some c =>
      rw [Constant.ofWord?_eq_some.1 hc]
      exact .constant c
    | none => exact .binder ⟨h, by simp [isReserved, hany, hc]⟩

/-- A constructor pattern, or the pattern of a word alone, is found where the text spells it. White
space after a word has been skipped. -/
theorem pattern_of_parseTagged (hinner : LaterSound inner) {acceptWord : Bool} {p : Pattern}
    {e : Cursor} (h : (parseTagged acceptWord c inner).Finds p e) :
    ∃ s w, c.ahead = s ++ w ++ e.ahead ∧ Derives (.pattern p) s ∧ Spaces w := by
  simp only [parseTagged, Step.finds_bind] at h
  obtain ⟨name, d, hd, hword, h⟩ := h
  obtain ⟨hname, hcd⟩ := word_of_parseWord hword
  obtain ⟨u, hu, hud⟩ := d.spaces_before_skipSpace
  by_cases hopen : d.skipSpace.current = some '('
  · simp only [hopen, dite_true] at h
    by_cases hres : isReserved name = true
    · simp [hres] at h
    · simp only [hres, Bool.false_eq_true, if_false, Step.finds_since, Step.finds_after,
        Step.finds_bind] at h
      obtain ⟨as, g, hg, has, hclose⟩ := h
      obtain ⟨v, hv, hvd⟩ := d.skipSpace.advance.spaces_before_skipSpace
      obtain ⟨s, hs, hargs⟩ :=
        arguments_of_parseArguments (fun f hf p g hp => hinner f _ p g hp) has
      obtain ⟨rfl, w, hw, hwg⟩ := closing_of_parseClosing hclose
      refine ⟨_, [], ?_, .tagged ⟨hname, by simpa using hres⟩ hu hv hargs hw, spaces_nil⟩
      rw [hcd, hud, Cursor.ahead_of_current hopen, hvd, hs, hwg]
      simp
  · simp only [hopen, dite_false] at h
    cases acceptWord with
    | false => simp at h
    | true =>
      obtain ⟨rfl, rfl⟩ := (Step.finds_done _).1 h
      exact ⟨name.toList, u, by rw [hcd, hud]; simp, derives_ofWord hname, hu⟩

/-- A pattern of any kind is found where the text spells it, with no white space before it. -/
theorem pattern_of_parseKind (hinner : LaterSound inner) {p : Pattern} {e : Cursor}
    (h : (parseKind c inner).Finds p e) :
    ∃ s w, c.ahead = s ++ w ++ e.ahead ∧ Derives (.pattern p) s ∧ Spaces w := by
  unfold parseKind at h
  split at h
  · exact absurd h (Step.not_finds_fail _)
  · rename_i x hx
    split at h
    · rename_i harray
      obtain ⟨ps, hps, rfl⟩ := Step.finds_map.1 h
      obtain ⟨t, ht, hslots⟩ := slots_of_parseElements hinner hps
      refine ⟨_, [], ?_, .array hslots, spaces_nil⟩
      rw [Cursor.ahead_of_current hx, ht, harray]
      simp
    split at h
    · rename_i hobject
      obtain ⟨es, hes, rfl⟩ := Step.finds_map.1 h
      obtain ⟨t, ht, hentries⟩ := entries_of_parseEntries hinner hes
      refine ⟨_, [], ?_, .object hentries, spaces_nil⟩
      rw [Cursor.ahead_of_current hx, ht, hobject]
      simp
    split at h
    · rename_i hquote
      obtain ⟨s, hs, hd⟩ := string_of_parseString hquote hx h
      exact ⟨s, [], by rw [hs]; simp, hd, spaces_nil⟩
    split at h
    · obtain ⟨s, hs, hd⟩ := number_of_parseNumber h
      exact ⟨s, [], by rw [hs]; simp, hd, spaces_nil⟩
    split at h
    · exact pattern_of_parseTagged hinner h
    · exact absurd h (Step.not_finds_fail _)

/-- A pattern is found past the white space before it, and left past the white space after it. -/
theorem finds_parsePattern {p : Pattern} {e : Cursor} :
    (parsePattern c).Finds p e ↔
      ∃ d, (parseKind c.skipSpace fun e _ => parsePattern e).Finds p d ∧ d.skipSpace = e := by
  rw [parsePattern]
  simp only [Step.finds_since, Step.finds_bind, Step.finds_called, Step.finds_within,
    Step.finds_done]
  constructor
  · intro h
    obtain ⟨p, d, -, hp, rfl, rfl⟩ := h
    exact ⟨d, hp, rfl⟩
  · intro h
    obtain ⟨d, hp, rfl⟩ := h
    exact ⟨p, d, hp.le, hp, rfl, rfl⟩

/-- **The parser finds only what the text spells.** -/
theorem spelledBy_of_parsePattern {p : Pattern} {e : Cursor} (h : (parsePattern c).Finds p e) :
    ∃ x, c.ahead = x ++ e.ahead ∧ p.SpelledBy x := by
  induction hn : c.ahead.length using Nat.strong_induction_on generalizing c p e with
  | _ n ih =>
    subst hn
    obtain ⟨d, hd, rfl⟩ := finds_parsePattern.1 h
    -- What is inside a bracket lies after it, so the texts there are shorter.
    have hinner : LaterSound (c := c.skipSpace) fun e _ => parsePattern e := fun f hf q g hq =>
      ih _ (Nat.lt_of_lt_of_le (Cursor.length_ahead_lt hf)
        (Cursor.length_ahead_le c.le_skipSpace)) hq rfl
    obtain ⟨u, hu, huc⟩ := c.spaces_before_skipSpace
    obtain ⟨s, w, hs, hp, hw⟩ := pattern_of_parseKind hinner hd
    obtain ⟨w', hw', hwd⟩ := d.spaces_before_skipSpace
    refine ⟨u ++ s ++ (w ++ w'), ?_, u, s, w ++ w', rfl, hu, hp, hw.append hw'⟩
    rw [huc, hs, hwd]
    simp

/-- The pattern parser is sound also as the parser for inner patterns. -/
theorem laterSound_parsePattern : LaterSound (c := c) fun e _ => parsePattern e :=
  fun _ _ _ _ h => spelledBy_of_parsePattern h

end Destructure
