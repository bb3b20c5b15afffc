import Destructure.Proofs.Parsing.Flaws

/-!
# Destructure.Proofs.Parsing.Brackets

Which brackets of a text are open at its end, if string literals are passed over.

Design points:

* `BracketScan` reads any text, one character at a time, and knows of nothing but brackets, quotes
  and backslashes. It gets stuck where a bracket is closed that is not the last one opened.
* `Neutral` texts leave the open brackets as they were, whichever these are. That is what spellings
  are made of, so it goes through the grammar by induction (`neutral_of_derives`).
* What may stand before an unfinished part opens brackets, but no string literal
  (`outside_of_enters`).
-/

namespace Destructure

open Text

/-- The brackets that the character opens. -/
def Bracket.opened? : Char → Option Bracket
  | '[' => some square
  | '\x7b' => some curly
  | '(' => some round
  | _ => none

/-- The brackets that the character closes. -/
def Bracket.closed? : Char → Option Bracket
  | ']' => some square
  | '\x7d' => some curly
  | ')' => some round
  | _ => none

/-- Where a scan is with respect to string literals. -/
inductive ScanMode where
  | outside
  | inside (quote : Char)
  /-- After a backslash in a literal. -/
  | escaped (quote : Char)
  deriving DecidableEq, Repr

/-- What a scan knows of the text before it. -/
structure BracketScan where
  /-- The brackets that are open, the last one first. -/
  opened : List Bracket
  mode : ScanMode
  deriving DecidableEq, Repr

namespace BracketScan

/-- Past one more character, if it closes nothing but the last open bracket. -/
def next (s : BracketScan) (x : Char) : Option BracketScan :=
  match s.mode with
  | .escaped quote => some { s with mode := .inside quote }
  | .inside quote =>
    if x = '\\' then some { s with mode := .escaped quote }
    else if x = quote then some { s with mode := .outside }
    else some s
  | .outside =>
    if x = '\'' ∨ x = '"' then some { s with mode := .inside x }
    else match Bracket.opened? x, Bracket.closed? x with
      | some b, _ => some { s with opened := b :: s.opened }
      | none, some b =>
        if s.opened.head? = some b then some { s with opened := s.opened.tail } else none
      | none, none => some s

/-- Past a text. -/
def run (s : BracketScan) (t : List Char) : Option BracketScan := t.foldlM next s

@[simp] theorem run_nil (s : BracketScan) : s.run [] = some s := rfl

@[simp] theorem run_cons (s : BracketScan) (x : Char) (t : List Char) :
    s.run (x :: t) = (s.next x).bind (·.run t) := List.foldlM_cons

@[simp] theorem run_append (s : BracketScan) (t u : List Char) :
    s.run (t ++ u) = (s.run t).bind (·.run u) := List.foldlM_append

end BracketScan

/-- The brackets of the text that are not in string literals are balanced. -/
def Balanced (t : List Char) : Prop :=
  BracketScan.run ⟨[], .outside⟩ t = some ⟨[], .outside⟩

/-- The text ends outside of string literals, with the brackets `opened` open. -/
def LeavesOpen (t : List Char) (opened : List Bracket) : Prop :=
  BracketScan.run ⟨[], .outside⟩ t = some ⟨opened, .outside⟩

/-- A scan of two texts goes on in the second one with what the first one left open. -/
theorem LeavesOpen.append {t u : List Char} {opened opened' : List Bracket}
    (ht : LeavesOpen t opened)
    (hu : BracketScan.run ⟨opened, .outside⟩ u = some ⟨opened', .outside⟩) :
    LeavesOpen (t ++ u) opened' := by
  unfold LeavesOpen at ht ⊢
  rw [BracketScan.run_append, ht]
  exact hu

/-- Whatever is open before the text is open after it. -/
def Neutral (t : List Char) : Prop :=
  ∀ opened, BracketScan.run ⟨opened, .outside⟩ t = some ⟨opened, .outside⟩

/-- A neutral text is balanced by itself. -/
theorem Neutral.balanced {t : List Char} (h : Neutral t) : Balanced t := h []

theorem neutral_nil : Neutral [] := fun _ => rfl

theorem Neutral.append {t u : List Char} (ht : Neutral t) (hu : Neutral u) : Neutral (t ++ u) := by
  intro opened
  simp [ht opened, hu opened]

/-! ### Characters that are no brackets -/

/-- Neither a bracket nor a quote. -/
def IsPlain (x : Char) : Prop :=
  ¬ (x = '\'' ∨ x = '"') ∧ Bracket.opened? x = none ∧ Bracket.closed? x = none

instance (x : Char) : Decidable (IsPlain x) :=
  inferInstanceAs (Decidable (_ ∧ _ ∧ _))

theorem IsPlain.next {x : Char} (h : IsPlain x) (opened : List Bracket) :
    BracketScan.next ⟨opened, .outside⟩ x = some ⟨opened, .outside⟩ := by
  simp [BracketScan.next, h.1, h.2.1, h.2.2]

/-- Characters that are neither brackets nor quotes leave the brackets as they are. -/
theorem neutral_of_plain {t : List Char} (h : ∀ x ∈ t, IsPlain x) : Neutral t := by
  intro opened
  induction t with
  | nil => rfl
  | cons x t ih =>
    rw [BracketScan.run_cons, (h x List.mem_cons_self).next]
    exact ih fun y hy => h y (List.mem_cons_of_mem _ hy)

theorem Neutral.cons {x : Char} {t : List Char} (hx : IsPlain x) (h : Neutral t) :
    Neutral (x :: t) := by
  intro opened
  rw [BracketScan.run_cons, hx.next]
  exact h opened

/-- The characters that a scan does not pass over. -/
def scanMarks : List Char := ['\'', '"', '[', ']', '\x7b', '\x7d', '(', ')']

/-- A class of characters without brackets and quotes has only plain ones. -/
theorem isPlain_of_class {p : Char → Bool} {x : Char} (hp : scanMarks.any p = false)
    (hx : p x = true) : IsPlain x := by
  have hmem : x ∉ scanMarks := fun hmem => List.any_eq_false.1 hp x hmem hx
  simp only [scanMarks, List.mem_cons, List.not_mem_nil, or_false, not_or] at hmem
  refine ⟨by simp [hmem], ?_, ?_⟩
  · unfold Bracket.opened?
    split <;> simp_all
  · unfold Bracket.closed?
    split <;> simp_all

theorem neutral_of_spaces {u : List Char} (hu : Spaces u) : Neutral u :=
  neutral_of_plain fun x hx => isPlain_of_class (by decide) (hu x hx)

theorem Neutral.padded {u s w : List Char} (hu : Spaces u) (h : Neutral s) (hw : Spaces w) :
    Neutral (u ++ s ++ w) :=
  ((neutral_of_spaces hu).append h).append (neutral_of_spaces hw)

theorem neutral_of_isNumberPart {t : List Char} (h : ∀ x ∈ t, isNumberPart x = true) :
    Neutral t :=
  neutral_of_plain fun x hx => isPlain_of_class (by decide) (h x hx)

theorem neutral_of_isWord {w : String} (h : isWord w = true) : Neutral w.toList := by
  obtain ⟨-, -, -, -, hall⟩ := isWord_cases h
  exact neutral_of_isNumberPart fun x hx => isNumberPart_of_isWordPart (hall x hx)

/-! ### Brackets and string literals -/

theorem run_opening (b : Bracket) (opened : List Bracket) (t : List Char) :
    BracketScan.run ⟨opened, .outside⟩ (b.opening :: t) =
      BracketScan.run ⟨b :: opened, .outside⟩ t := by
  cases b <;> rfl

theorem run_closing (b : Bracket) (opened : List Bracket) :
    BracketScan.run ⟨b :: opened, .outside⟩ [b.closing] = some ⟨opened, .outside⟩ := by
  cases b <;> rfl

/-- A neutral text in a pair of brackets is neutral. -/
theorem neutral_bracket (b : Bracket) {t : List Char} (h : Neutral t) :
    Neutral (b.opening :: (t ++ [b.closing])) := by
  intro opened
  rw [run_opening, BracketScan.run_append, h]
  exact run_closing b opened

/-- Inside a string literal no character opens or closes a bracket. -/
theorem run_quoted {quote : Char} {s v : List Char} (hquote : quote ≠ '\\')
    (h : Quoted quote s v) (opened : List Bracket) :
    BracketScan.run ⟨opened, .inside quote⟩ (s ++ [quote]) = some ⟨opened, .outside⟩ := by
  induction h with
  | nil => simp [BracketScan.next, hquote]
  | plain hc hb _ ih => simpa [BracketScan.next, hc, hb] using ih
  | escaped _ _ ih => simpa [BracketScan.next] using ih

/-- String literals are passed over. -/
theorem neutral_quoted {quote : Char} {s v : List Char} (hquote : quote = '\'' ∨ quote = '"')
    (h : Quoted quote s v) : Neutral (quote :: (s ++ [quote])) := by
  intro opened
  rw [BracketScan.run_cons]
  simp only [BracketScan.next, hquote, if_true, Option.bind_some]
  exact run_quoted (by rcases hquote with rfl | rfl <;> decide) h opened

/-! ### Spellings -/

/-- Every spelling leaves the open brackets as they were. -/
theorem neutral_of_derives {ph : Phrase} {s : List Char} (h : Derives ph s) : Neutral s := by
  induction h with
  | array _ ih => exact neutral_bracket .square ih
  | object _ ih => exact neutral_bracket .curly ih
  | tagged hname hu hv _ hw ih =>
    exact ((neutral_of_isWord hname.1).append (neutral_of_spaces hu)).append
      (neutral_bracket .round (.padded hv ih hw))
  | binder hname => exact neutral_of_isWord hname.1
  | constant k => exact neutral_of_isWord (by cases k <;> decide)
  | wildcard => exact neutral_nil.cons (by decide)
  | number hn => exact neutral_of_isNumberPart (isNumberPart_of_numeral hn)
  | string hquote hs => exact neutral_quoted hquote hs
  | noSlot hu => exact neutral_of_spaces hu
  | lastSlot hu _ hw ih => exact .padded hu ih hw
  | emptySlot hu _ ih => exact (neutral_of_spaces hu).append (ih.cons (by decide))
  | filledSlot hu _ hw _ ih ihs => exact (Neutral.padded hu ih hw).append (ihs.cons (by decide))
  | noEntry hu => exact neutral_of_spaces hu
  | lastEntry hu _ hw ih => exact .padded hu ih hw
  | moreEntries hu _ hw _ ih ihs => exact (Neutral.padded hu ih hw).append (ihs.cons (by decide))
  | shorthand hkey => exact neutral_of_isWord hkey.1
  | explicit hkey _ hu hv _ ih =>
    exact ((neutral_of_isWord hkey).append (neutral_of_spaces hu)).append
      (((neutral_of_spaces hv).append ih).cons (by decide))
  | unspecified => exact neutral_nil
  | positional _ ih => exact neutral_bracket .square ih
  | keyed _ ih => exact neutral_bracket .curly ih

/-- Whatever may stand between a pair of brackets leaves the open brackets as they were. -/
theorem neutral_of_contents {b : Bracket} {t : List Char} (h : b.Contents t) : Neutral t := by
  cases b with
  | square =>
    obtain ⟨ps, h⟩ := h
    exact neutral_of_derives h
  | curly =>
    obtain ⟨es, h⟩ := h
    exact neutral_of_derives h
  | round =>
    obtain ⟨as, v, s, w, rfl, hv, h, hw⟩ := h
    exact .padded hv (neutral_of_derives h) hw

/-- What stands before a part in another one is neutral, but for a bracket that it may open. -/
theorem outside_of_enters {q r : Part} {s : List Char} (h : Enters q s r) (opened : List Bracket) :
    ∃ opened', BracketScan.run ⟨opened, .outside⟩ s = some ⟨opened', .outside⟩ := by
  have hbracket (b : Bracket) {t : List Char} (ht : Neutral t) :
      ∃ opened', BracketScan.run ⟨opened, .outside⟩ (b.opening :: t) =
        some ⟨opened', .outside⟩ :=
    ⟨b :: opened, by rw [run_opening, ht]⟩
  cases h with
  | array => exact ⟨opened, rfl⟩
  | object => exact ⟨opened, rfl⟩
  | tagged hname hu =>
    exact ⟨opened, (neutral_of_isWord hname.1).append (neutral_of_spaces hu) opened⟩
  | positional hv => exact hbracket .round (neutral_of_spaces hv)
  | keyed hv => exact hbracket .round (neutral_of_spaces hv)
  | element ht =>
    obtain ⟨slots, hslots, -⟩ := ht.exists_slots
    exact hbracket .square (neutral_of_derives (derives_slots hslots))
  | item ht =>
    obtain ⟨slots, hslots, -⟩ := ht.exists_slots
    exact hbracket .curly (neutral_of_derives (derives_entries hslots))
  | value hkey _ hu hv =>
    exact ⟨opened, ((neutral_of_isWord hkey).append (neutral_of_spaces hu)).append
      ((neutral_of_spaces hv).cons (by decide)) opened⟩

end Destructure
