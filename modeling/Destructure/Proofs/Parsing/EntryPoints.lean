import Destructure.Proofs.Parsing.Completeness
import Destructure.Proofs.Parsing.Flaws

/-!
# Destructure.Proofs.Parsing.EntryPoints

Texts may be read as any pattern or as constructor patterns only. The second is the first one with
all other patterns refused, and even its errors are the same once there is a word with a parenthesis
after it: `parseTagged_agrees`.

Proof shape: only a word starts a constructor pattern, so the two productions find the same patterns
(`finds_parseTagged_false_iff_parseKind`). They name different productions in an error that has none
yet. But whatever fails after the parenthesis names one
(`fault_of_parseTagged_of_parenthesis`), so from there on they fail alike
(`fails_parseWhole_of_parenthesis`).
-/

namespace Destructure

open Text

variable {c : Cursor} {inner : Later c}

/-- Is it a constructor pattern? -/
def Pattern.IsTagged (p : Pattern) : Prop := ∃ name as, p = .tagged name as

/-- Without words the parser finds what it finds with them, but for the words. -/
theorem finds_parseTagged_false {p : Pattern} {e : Cursor} :
    (parseTagged false c inner).Finds p e ↔ (parseTagged true c inner).Finds p e ∧ p.IsTagged := by
  have hword (w : String) : ¬ (Pattern.ofWord w).IsTagged := by
    rintro ⟨name, as, h⟩
    unfold Pattern.ofWord at h
    split at h
    · cases h
    · split at h <;> cases h
  simp only [parseTagged, Step.finds_bind]
  constructor
  · rintro ⟨name, d, hd, hname, h⟩
    by_cases hopen : d.skipSpace.current = some '('
    · refine ⟨⟨name, d, hd, hname, ?_⟩, ?_⟩
      · simpa only [hopen, dite_true] using h
      · by_cases hres : isReserved name = true
        · simp [hopen, hres] at h
        · simp only [hopen, dite_true, hres, Bool.false_eq_true, if_false, Step.finds_since,
            Step.finds_after, Step.finds_bind] at h
          obtain ⟨as, g, hg, has, hclose⟩ := h
          exact ⟨name, as, (closing_of_parseClosing hclose).1⟩
    · simp [hopen] at h
  · rintro ⟨⟨name, d, hd, hname, h⟩, htagged⟩
    refine ⟨name, d, hd, hname, ?_⟩
    by_cases hopen : d.skipSpace.current = some '('
    · simpa only [hopen, dite_true] using h
    · simp only [hopen, dite_false, if_true, Step.finds_done] at h
      exact absurd (h.1 ▸ htagged) (hword name)

/-- Only a word can start a constructor pattern. -/
theorem finds_parseTagged_false_iff_parseKind {p : Pattern} {e : Cursor} :
    (parseTagged false c inner).Finds p e ↔ (parseKind c inner).Finds p e ∧ p.IsTagged := by
  rw [finds_parseTagged_false]
  refine and_congr_left ?_
  rintro ⟨name, as, rfl⟩
  constructor
  · intro h
    have h' := h
    simp only [parseTagged, Step.finds_bind] at h'
    obtain ⟨w, d, -, hw, -⟩ := h'
    obtain ⟨hword, hahead⟩ := word_of_parseWord hw
    rwa [parseKind_of_word hword hahead]
  · intro h
    unfold parseKind at h
    split at h
    · exact absurd h (Step.not_finds_fail _)
    · split at h
      · obtain ⟨_, -, ⟨⟩⟩ := Step.finds_map.1 h
      split at h
      · obtain ⟨_, -, ⟨⟩⟩ := Step.finds_map.1 h
      split at h
      · obtain ⟨-, _, -, ⟨⟩⟩ := finds_parseString.1 h
      split at h
      · obtain ⟨_, -, ⟨⟩, -⟩ := finds_parseNumber.1 h
      split at h
      · exact h
      · exact absurd h (Step.not_finds_fail _)

theorem finds_parseWholeTagged {p : Pattern} {e : Cursor} :
    (parseWholeTagged c).Finds p e ↔ (parseWhole c).Finds p e ∧ p.IsTagged := by
  simp only [parseWholeTagged, parseWordPattern, Step.finds_bind, Step.finds_since, Step.finds_map,
    finds_parseTagged_false_iff_parseKind, finds_parseWhole, finds_parsePattern, finds_parseEnd]
  constructor
  · rintro ⟨q, d, -, ⟨hq, htagged⟩, -, ⟨hnil, rfl⟩, rfl⟩
    exact ⟨⟨⟨d, hq, rfl⟩, hnil⟩, htagged⟩
  · rintro ⟨⟨⟨d, hp, rfl⟩, hnil⟩, htagged⟩
    exact ⟨p, d, c.le_trans c.le_skipSpace hp.le, ⟨hp, htagged⟩, (), ⟨hnil, rfl⟩, rfl⟩

/-- A text is read as a constructor pattern if it is read as a pattern and that is one. -/
theorem parseTagged_eq_ok_iff {text : String} {p : Pattern} :
    Pattern.parseTagged text = .ok p ↔ Pattern.parse text = .ok p ∧ p.IsTagged := by
  constructor
  · intro h
    have hfinds : (parseWholeTagged (Cursor.ofString text)).Finds p _ := ⟨h, rfl⟩
    obtain ⟨hp, htagged⟩ := finds_parseWholeTagged.1 hfinds
    exact ⟨hp.1, htagged⟩
  · rintro ⟨h, htagged⟩
    have hfinds : (parseWhole (Cursor.ofString text)).Finds p _ := ⟨h, rfl⟩
    exact (finds_parseWholeTagged.2 ⟨hfinds, htagged⟩).1

/-! ### A word and a parenthesis -/

section

variable {name : String} {d f : Cursor} {e : ParseError}

/-- Whether a word alone would do does not matter if there is a parenthesis after it. -/
theorem parseTagged_of_parenthesis (hword : (parseWord c).Finds name d)
    (hopen : d.skipSpace.current = some '(') (acceptWord : Bool) :
    parseTagged acceptWord c inner = parseTagged true c inner := by
  refine Step.bind_congr fun name' d' hd hword' => ?_
  obtain ⟨rfl, rfl⟩ := hword.unique hword'
  simp only [hopen, dite_true]

/-- After a word and a parenthesis all errors come from inside, so it does not matter which
production is named around them. -/
theorem fails_parseWhole_of_parenthesis (hword : (parseWord c.skipSpace).Finds name d)
    (hopen : d.skipSpace.current = some '(') (h : (parseWholeTagged c).Fails e f) :
    (parseWhole c).Fails e f := by
  have htagged : parseKind c.skipSpace (fun e _ => parsePattern e) =
      parseTagged false c.skipSpace fun e _ => parsePattern e := by
    obtain ⟨hname, hahead⟩ := word_of_parseWord hword
    rw [parseKind_of_word hname hahead, parseTagged_of_parenthesis hword hopen false]
  simp only [parseWholeTagged, parseWordPattern, Step.fails_bind, Step.fails_since, Step.fails_map,
    Step.finds_since, fails_parseEnd] at h
  rw [fails_parseWhole, fails_parsePattern, htagged]
  rcases h with h | ⟨p, g, -, hp, hend, he, rfl⟩
  · have hfault : Fault .pattern c.skipSpace e f :=
      fault_of_parseTagged_of_parenthesis laterSound_parsePattern laterFaulty_parsePattern hword
        hopen h
    exact .inl ⟨e, h, hfault.within_eq .pattern⟩
  · refine .inr ⟨p, ?_, hend, he⟩
    rw [finds_parsePattern, htagged]
    exact ⟨g, hp, rfl⟩

end

/-- **The two ways to read a text agree.** As a constructor pattern it is read exactly if it is read
as a pattern and that is one, and as soon as it starts with a word and a parenthesis there is no
difference at all, not even in an error. -/
theorem parseTagged_agrees (text : String) :
    (∀ p, Pattern.parseTagged text = .ok p ↔ Pattern.parse text = .ok p ∧ p.IsTagged) ∧
      ∀ (u v rest : List Char) (w : String), text.toList = u ++ w.toList ++ v ++ '(' :: rest →
        Spaces u → isWord w = true → Spaces v → Pattern.parseTagged text = Pattern.parse text := by
  refine ⟨fun p => parseTagged_eq_ok_iff, ?_⟩
  intro u v rest w htext hu hw hv
  have hahead : (Cursor.ofString text).skipSpace.ahead = w.toList ++ (v ++ '(' :: rest) := by
    obtain ⟨x, r, hx, hspace, -⟩ := starts_of_isWord hw (v ++ '(' :: rest)
    rw [hx]
    exact Cursor.ahead_skipSpace hu hspace (htext.trans (by simp [← hx]))
  obtain ⟨d, hword, hrest⟩ := parseWord_of_isWord hw hahead (breaks_spaces hv (by decide) rest)
  have hopen : d.skipSpace.current = some '(' :=
    Cursor.current_eq_some.2 ⟨rest, Cursor.ahead_skipSpace hv (by decide) hrest⟩
  cases hresult : Pattern.parseTagged text with
  | ok p => exact (parseTagged_eq_ok_iff.1 hresult).1.symm
  | error e => exact (fails_parseWhole_of_parenthesis hword hopen ⟨hresult, rfl⟩).1.symm

theorem parseTagged_agrees_of_unclosed :
    " if\n([x".toList = [' '] ++ "if".toList ++ ['\n'] ++ '(' :: "[x".toList ∧ Spaces [' '] ∧
      isWord "if" = true ∧ Spaces ['\n'] ∧
        Pattern.parseTagged " if\n([x" = Pattern.parse " if\n([x" := by
  have htext : " if\n([x".toList = [' '] ++ "if".toList ++ ['\n'] ++ '(' :: "[x".toList := by decide
  have hu : Spaces [' '] := List.forall_mem_singleton.2 (by decide)
  have hw : isWord "if" = true := by decide
  have hv : Spaces ['\n'] := List.forall_mem_singleton.2 (by decide)
  exact ⟨htext, hu, hw, hv, (parseTagged_agrees _).2 _ _ _ _ htext hu hw hv⟩

end Destructure
