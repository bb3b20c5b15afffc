import Destructure.Proofs.Parsing.ErrorPlace
import Destructure.Proofs.Parsing.CallTree
import Destructure.Proofs.Text.Offsets
import Mathlib.Data.List.GetD

/-!
# Destructure.Proofs.Parsing.Places

However a cursor is moved, it stays at a place of its text, and all that it tells of the text is
true: `placedIn_of_run`.

Design points:

* A `Cursor` holds the two sides of its place and can do nothing wrong. A program that has a text as
  bytes holds an offset, and slices the text anew whenever it looks at it. `OffsetCursor` is such a
  program. Where a slice fails it goes on with an empty text, so a wrong offset would not show.
* A `Trail` is a place with the places that were kept. What a step of a run does to it is the same
  for both kinds of places.

Proof shape: each operation at an offset is compared with the one at the place (`toOffset`), then
one step of a run, then the run. The offset of a cursor is that of a cut of its text, so no slice
fails there. What a cursor says of its text holds for any cursor in the text, and no step leaves it
(`Cursor.text_go`).
-/

namespace Destructure

open Text

open Cursor (Between)

/-! ### Places by their offsets -/

/-- A text with a byte offset, which may be a wrong one. -/
structure OffsetCursor where
  text : List Char
  offset : Nat

namespace OffsetCursor

variable {m : OffsetCursor} {x : Char}

def atStart (text : List Char) : OffsetCursor := ⟨text, 0⟩

/-- The text from the offset on, if the offset is a boundary. -/
def rest? (m : OffsetCursor) : Option (List Char) := slice? m.offset (byteLength m.text) m.text

def rest (m : OffsetCursor) : List Char := m.rest?.getD []

def current (m : OffsetCursor) : Option Char := m.rest.head?

def isAtEnd (m : OffsetCursor) : Bool := byteLength m.text ≤ m.offset

/-- As many bytes further on as the character has. -/
def pastChar (x : Char) (m : OffsetCursor) : OffsetCursor :=
  { m with offset := m.offset + x.utf8Size }

def advance (m : OffsetCursor) : OffsetCursor :=
  match m.current with
  | some x => m.pastChar x
  | none => m

def eat (expected : Char) (m : OffsetCursor) : Bool × OffsetCursor :=
  if m.current = some expected then (true, m.pastChar expected) else (false, m)

theorem rest?_eq_some_iff {w : List Char} :
    m.rest? = some w ↔ ∃ a, m.text = a ++ w ∧ byteLength a = m.offset := by
  rw [rest?, slice?_eq_some_iff]
  constructor
  · rintro ⟨a, b, htext, ha, hall⟩
    obtain ⟨-, rfl⟩ := cut_unique (htext.symm.trans (List.append_nil _).symm) hall
    exact ⟨a, htext.trans (List.append_nil _), ha⟩
  · rintro ⟨a, htext, ha⟩
    exact ⟨a, [], htext.trans (List.append_nil _).symm, ha, congrArg byteLength htext.symm⟩

/-- A wrong offset does not show: there is a character, but nothing seems to be left. -/
example : (⟨['é'], 1⟩ : OffsetCursor).rest = [] := by decide

/-- As long as there is a character ahead, there is room for it. -/
theorem pastChar_le (h : m.current = some x) : m.offset + x.utf8Size ≤ byteLength m.text := by
  rw [current, rest] at h
  cases hrest : m.rest? with
  | none =>
    rw [hrest] at h
    cases h
  | some w =>
    rw [hrest] at h
    obtain ⟨a, htext, ha⟩ := rest?_eq_some_iff.1 hrest
    obtain ⟨v, rfl⟩ := List.head?_eq_some_iff.1 h
    rw [htext, ← ha, byteLength_append, byteLength_cons]
    omega

/-- Character by character, and each time the text ahead is looked up again. -/
def skipWhile (p : Char → Bool) (m : OffsetCursor) : OffsetCursor :=
  match _ : m.current with
  | some x => if p x then (m.pastChar x).skipWhile p else m
  | none => m
termination_by byteLength m.text - m.offset
decreasing_by
  have := x.utf8Size_pos
  have := pastChar_le ‹m.current = some x›
  simp only [pastChar]
  omega

theorem skipWhile_of_current (h : m.current = some x) (p : Char → Bool) :
    m.skipWhile p = if p x = true then (m.pastChar x).skipWhile p else m := by
  rw [skipWhile]
  split
  · rename_i y hy
    obtain rfl := Option.some.inj (h.symm.trans hy)
    rfl
  · rename_i hnone
    cases h.symm.trans hnone

theorem skipWhile_of_current_eq_none (h : m.current = none) (p : Char → Bool) :
    m.skipWhile p = m := by
  rw [skipWhile]
  split
  · rename_i y hy
    cases h.symm.trans hy
  · rfl

def skipSpace (m : OffsetCursor) : OffsetCursor := m.skipWhile isSpace

/-- The text from an offset up to the cursor. -/
def textFrom (n : Nat) (m : OffsetCursor) : List Char := (slice? n m.offset m.text).getD []

/-- What is skipped, and the place after it. -/
def eatWhile (p : Char → Bool) (m : OffsetCursor) : List Char × OffsetCursor :=
  ((m.skipWhile p).textFrom m.offset, m.skipWhile p)

def spanFrom (n : Nat) (m : OffsetCursor) : Span := Span.ofOffsets n m.offset

def restSpan (m : OffsetCursor) : Span := Span.ofOffsets m.offset (byteLength m.text)

def currentSpan (m : OffsetCursor) : Span :=
  match m.current with
  | some x => Span.ofOffsets m.offset (m.offset + x.utf8Size)
  | none => Span.point (Span.bound m.offset)

end OffsetCursor

/-! ### Both kinds of places agree -/

namespace Cursor

variable {c d : Cursor} {x : Char} {w : List Char}

/-- The place by its offset. -/
def toOffset (c : Cursor) : OffsetCursor := ⟨c.text, c.offset⟩

theorem byteLength_text (c : Cursor) : byteLength c.text = c.offset + byteLength c.ahead := by
  rw [text, byteLength_append, byteLength_behind]

@[simp] theorem rest?_toOffset (c : Cursor) : c.toOffset.rest? = some c.ahead :=
  OffsetCursor.rest?_eq_some_iff.2 ⟨c.behind.reverse, rfl, c.byteLength_behind⟩

@[simp] theorem rest_toOffset (c : Cursor) : c.toOffset.rest = c.ahead := by
  rw [OffsetCursor.rest, rest?_toOffset, Option.getD_some]

@[simp] theorem current_toOffset (c : Cursor) : c.toOffset.current = c.current := by
  rw [OffsetCursor.current, rest_toOffset, current]

theorem isAtEnd_toOffset (c : Cursor) : c.toOffset.isAtEnd = c.isAtEnd := by
  rw [Bool.eq_iff_iff, OffsetCursor.isAtEnd, decide_eq_true_iff, isAtEnd, List.isEmpty_iff,
    ← byteLength_eq_zero]
  have hlength : byteLength c.toOffset.text = c.offset + byteLength c.ahead := c.byteLength_text
  have hoffset : c.toOffset.offset = c.offset := rfl
  omega

theorem pastChar_toOffset (h : c.current = some x) :
    c.toOffset.pastChar x = c.advance.toOffset := by
  have hoffset : c.advance.offset = c.offset + x.utf8Size := by
    rw [(Between.advance h).offset_stop, byteLength_append, byteLength_behind]
    rfl
  rw [toOffset, toOffset, OffsetCursor.pastChar, text_eq_of_le c.le_advance, hoffset]

theorem advance_of_current_eq_none (h : c.current = none) : c.advance = c := by
  have hnil : c.ahead = [] := List.head?_eq_none_iff.1 h
  refine eq_of_ahead_eq c.le_advance c.le_refl ?_
  rw [ahead_advance, hnil]
  rfl

theorem advance_toOffset (c : Cursor) : c.toOffset.advance = c.advance.toOffset := by
  rw [OffsetCursor.advance, current_toOffset]
  cases h : c.current with
  | none => rw [advance_of_current_eq_none h]
  | some x => exact pastChar_toOffset h

theorem eat_toOffset (x : Char) (c : Cursor) :
    c.toOffset.eat x = ((c.eat x).1, (c.eat x).2.toOffset) := by
  rw [OffsetCursor.eat, current_toOffset, eat]
  by_cases h : c.current = some x
  · rw [if_pos h, if_pos h, pastChar_toOffset h]
  · rw [if_neg h, if_neg h]

theorem skipWhile_advance {p : Char → Bool} (h : c.current = some x) (hx : p x = true) :
    c.advance.skipWhile p = c.skipWhile p := by
  refine eq_of_ahead_eq (c.le_trans c.le_advance (le_skipWhile p _)) (le_skipWhile p c) ?_
  rw [ahead_skipWhile, ahead_skipWhile, ahead_of_current h, List.dropWhile_cons_of_pos hx]

theorem skipWhile_eq_self {p : Char → Bool} (h : ∀ x ∈ c.current, p x = false) :
    c.skipWhile p = c := by
  refine eq_of_ahead_eq (le_skipWhile p c) c.le_refl ?_
  rw [ahead_skipWhile]
  cases hc : c.ahead with
  | nil => rfl
  | cons x s =>
    have hx : p x = false := h x (current_of_ahead hc).1
    exact List.dropWhile_cons_of_neg (by rw [hx]; exact Bool.false_ne_true)

/-- Going on character by character passes the same as going on at once. -/
theorem skipWhile_toOffset (p : Char → Bool) (c : Cursor) :
    c.toOffset.skipWhile p = (c.skipWhile p).toOffset := by
  induction hc : c.ahead generalizing c with
  | nil =>
    have hnone : c.current = none := List.head?_eq_none_iff.2 hc
    have hself : c.skipWhile p = c := skipWhile_eq_self (by rw [hnone]; rintro _ ⟨⟩)
    rw [OffsetCursor.skipWhile_of_current_eq_none (c.current_toOffset.trans hnone), hself]
  | cons x s ih =>
    obtain ⟨hx, hs⟩ := current_of_ahead hc
    rw [OffsetCursor.skipWhile_of_current (c.current_toOffset.trans hx)]
    by_cases hp : p x = true
    · rw [if_pos hp, pastChar_toOffset hx, ih _ hs, skipWhile_advance hx hp]
    · have hself : c.skipWhile p = c := by
        refine skipWhile_eq_self fun y hy => ?_
        obtain rfl := Option.some.inj (hx.symm.trans hy)
        exact Bool.not_eq_true _ ▸ hp
      rw [if_neg hp, hself]

/-- The text from an offset on is the same, cut out of the whole text or out of what lies behind. -/
theorem textFrom_toOffset (n : Nat) (c : Cursor) : c.toOffset.textFrom n = c.textFrom n := by
  have hslice := slice?_append_left n c.behind.reverse c.ahead
  rw [byteLength_behind] at hslice
  rw [textFrom, ← hslice]
  rfl

theorem restSpan_toOffset (c : Cursor) : c.toOffset.restSpan = c.restSpan := by
  rw [OffsetCursor.restSpan, restSpan, spanFrom]
  exact congrArg (Span.ofOffsets c.offset) c.byteLength_text

theorem currentSpan_toOffset (c : Cursor) : c.toOffset.currentSpan = c.currentSpan := by
  rw [OffsetCursor.currentSpan, current_toOffset, currentSpan]
  cases h : c.current with
  | none =>
    rw [advance_of_current_eq_none h]
    rfl
  | some x =>
    have hoffset : c.toOffset.offset + x.utf8Size = c.advance.offset :=
      congrArg OffsetCursor.offset (pastChar_toOffset h)
    simp only [hoffset]
    rfl

end Cursor

namespace OffsetCursor

/-- All that is asked at the offset is answered as at the place. -/
structure TellsOf (m : OffsetCursor) (c : Cursor) : Prop where
  text_eq : m.text = c.text
  offset_eq : m.offset = c.offset
  /-- The text ahead is found, and not only empty for want of any. -/
  rest?_eq : m.rest? = some c.ahead
  current_eq : m.current = c.current
  isAtEnd_eq : m.isAtEnd = c.isAtEnd
  eat_eq : ∀ x, (m.eat x).1 = (c.eat x).1
  eatWhile_eq : ∀ p, (m.eatWhile p).1 = (c.skipWhile p).textFrom c.offset
  textFrom_eq : ∀ n, m.textFrom n = c.textFrom n
  spanFrom_eq : ∀ n, m.spanFrom n = c.spanFrom n
  restSpan_eq : m.restSpan = c.restSpan
  currentSpan_eq : m.currentSpan = c.currentSpan

/-- A place and its offset form answer every question alike. -/
theorem tellsOf_toOffset (c : Cursor) : c.toOffset.TellsOf c where
  text_eq := rfl
  offset_eq := rfl
  rest?_eq := c.rest?_toOffset
  current_eq := c.current_toOffset
  isAtEnd_eq := c.isAtEnd_toOffset
  eat_eq x := by rw [c.eat_toOffset]
  eatWhile_eq p := by
    rw [eatWhile, c.skipWhile_toOffset]
    exact (c.skipWhile p).textFrom_toOffset c.offset
  textFrom_eq n := c.textFrom_toOffset n
  spanFrom_eq _ := rfl
  restSpan_eq := c.restSpan_toOffset
  currentSpan_eq := c.currentSpan_toOffset

end OffsetCursor

/-! ### What a cursor tells of its text -/

/-- The longest first part of a text whose characters all satisfy `p`. -/
structure IsLongestRun (p : Char → Bool) (s w : List Char) : Prop where
  starts : w <+: s
  satisfies : ∀ x ∈ w, p x = true
  longest : ∀ v, v <+: s → (∀ x ∈ v, p x = true) → v <+: w

theorem isLongestRun_takeWhile (p : Char → Bool) (s : List Char) :
    IsLongestRun p s (s.takeWhile p) where
  starts := List.takeWhile_prefix p
  satisfies _ hx := List.mem_takeWhile_imp hx
  longest := by
    rintro v ⟨t, rfl⟩ hv
    rw [List.takeWhile_append_of_pos hv]
    exact List.prefix_append v _

/-- The span is that of `w` after `before`, but with the greatest offset for any greater one. -/
structure Span.Saturates (s : Span) (before w : List Char) : Prop where
  start_eq : s.start.toNat = min (byteLength before) maxOffset
  stop_eq : s.stop.toNat = min (byteLength (before ++ w)) maxOffset
  start_le_stop : s.start ≤ s.stop

namespace Cursor

variable {c d : Cursor} {w : List Char}

theorem Between.current (c : Cursor) : Between c c.current.toList c.advance := by
  cases h : c.current with
  | none => exact .advance_nil (List.head?_eq_none_iff.1 h)
  | some x => exact .advance h

theorem saturates_spanFrom (h : Between c w d) :
    (d.spanFrom c.offset).Saturates c.behind.reverse w := by
  have hle : c.offset ≤ d.offset := offset_le_offset h.le
  rw [spanFrom, ← c.byteLength_behind, h.offset_stop] at *
  exact ⟨Span.toNat_bound _, Span.toNat_bound _, Span.bound_le_bound hle⟩

/-- The spans at a place mark what they are spans of: the character ahead, if there is one, all that
lies ahead, and what was passed since an earlier place. -/
structure SpansMark (Marks : Span → List Char → List Char → Prop) (c : Cursor) : Prop where
  current : Marks c.currentSpan c.behind.reverse c.current.toList
  rest : Marks c.restSpan c.behind.reverse c.ahead
  passed : ∀ e w, Between e w c → Marks (c.spanFrom e.offset) e.behind.reverse w

/-- All spans are spans between two places of the text. -/
theorem spansMark_of_between {Marks : Span → List Char → List Char → Prop}
    (h : ∀ e w d, Between e w d → e.text = c.text →
      Marks (d.spanFrom e.offset) e.behind.reverse w) :
    c.SpansMark Marks where
  current := h c _ _ (.current c) rfl
  rest := h c _ _ (.toEnd c) rfl
  passed e w hw := h e w c hw (text_eq_of_le hw.le)

/-- What the cursor tells of the text is true of it. -/
structure PlacedIn (text : List Char) (c : Cursor) : Prop where
  text_eq : c.text = text
  offset_le : c.offset ≤ byteLength text
  isBoundary : isBoundary c.offset text = true
  /-- The text before the place and the text ahead make up the whole. -/
  append_ahead : ∃ before, slice? 0 c.offset text = some before ∧ before ++ c.ahead = text
  isAtEnd_iff : c.isAtEnd = true ↔ c.ahead = []
  current_eq_none_iff : c.current = none ↔ c.ahead = []
  /-- A run of characters is skipped, the longest there is, and no more than that. -/
  skipWhile : ∀ p, ∃ w, (c.skipWhile p).textFrom c.offset = w ∧ IsLongestRun p c.ahead w ∧
    Between c w (c.skipWhile p)
  textFrom_of_boundary : ∀ n, n ≤ c.offset → Text.isBoundary n text = true →
    slice? n c.offset text = some (c.textFrom n)
  textFrom_of_not_boundary : ∀ n, ¬(n ≤ c.offset ∧ Text.isBoundary n text = true) →
    c.textFrom n = []
  spans_saturate : c.SpansMark Span.Saturates
  spans_cover : byteLength text ≤ Span.maxOffset → c.SpansMark Span.Covers

theorem isBoundary_offset (c : Cursor) : Text.isBoundary c.offset c.text = true :=
  isBoundary_iff.2 ⟨c.behind.reverse, c.ahead, rfl, c.byteLength_behind⟩

/-- A place lies where it says, in its own text. -/
theorem placedIn_text (c : Cursor) : c.PlacedIn c.text where
  text_eq := rfl
  offset_le := by
    rw [byteLength_text]
    exact Nat.le_add_right _ _
  isBoundary := c.isBoundary_offset
  append_ahead :=
    ⟨c.behind.reverse, slice?_eq_some_iff.2 ⟨[], c.ahead, rfl, rfl, c.byteLength_behind⟩, rfl⟩
  isAtEnd_iff := List.isEmpty_iff
  current_eq_none_iff := List.head?_eq_none_iff
  skipWhile p := by
    have hbetween : Between c (c.ahead.takeWhile p) (c.skipWhile p) :=
      ⟨le_skipWhile p c, List.takeWhile_append_dropWhile.symm⟩
    exact ⟨_, textFrom_of_between hbetween, isLongestRun_takeWhile p c.ahead, hbetween⟩
  textFrom_of_boundary n hle hn := by
    have hslice : (slice? n c.offset c.text).isSome = true := by
      rw [slice?, if_pos ⟨hle, hn, c.isBoundary_offset⟩]
      rfl
    obtain ⟨w, hw⟩ := Option.isSome_iff_exists.1 hslice
    have htext : c.textFrom n = w := by
      rw [← textFrom_toOffset]
      exact congrArg (·.getD []) hw
    rw [hw, htext]
  textFrom_of_not_boundary n hn := by
    have hslice : slice? n c.offset c.text = none := if_neg fun h => hn ⟨h.1, h.2.1⟩
    rw [← textFrom_toOffset]
    exact congrArg (·.getD []) hslice
  spans_saturate := spansMark_of_between fun _ _ _ h _ => saturates_spanFrom h
  spans_cover hlen := spansMark_of_between fun _ _ _ h htext =>
    covers_spanFrom h (htext ▸ hlen)

end Cursor

/-! ### Runs -/

/-- A way to move on in a text. -/
inductive Motion where
  | advance
  | eat (expected : Char)
  | skipWhile (p : Char → Bool)
  | skipSpace

/-- A step of a run. -/
inductive Move where
  | go (motion : Motion)
  /-- Keep the place. -/
  | save
  /-- Back to a kept place, by how many were kept after it. If there is none, the place stays. -/
  | restore (i : Nat)

def Move.isRestore : Move → Bool
  | restore _ => true
  | _ => false

/-- A place with the places that were kept, the latest first. -/
structure Trail (α : Type) where
  place : α
  kept : List α

namespace Trail

variable {α β : Type}

def start (a : α) : Trail α := ⟨a, [a]⟩

def step (go : Motion → α → α) (t : Trail α) : Move → Trail α
  | .go motion => { t with place := go motion t.place }
  | .save => { t with kept := t.place :: t.kept }
  | .restore i => { t with place := t.kept.getD i t.place }

def run (go : Motion → α → α) (moves : List Move) (t : Trail α) : Trail α :=
  moves.foldl (step go) t

def map (f : α → β) (t : Trail α) : Trail β := ⟨f t.place, t.kept.map f⟩

variable {go : Motion → α → α} {go' : Motion → β → β} {f : α → β}

/-- A move commutes with a map of places that every motion commutes with. -/
theorem step_map (h : ∀ motion a, go' motion (f a) = f (go motion a)) (t : Trail α) (m : Move) :
    (t.map f).step go' m = (t.step go m).map f := by
  cases m with
  | go motion => exact congrArg (Trail.mk · (t.kept.map f)) (h motion t.place)
  | save => rfl
  | restore i => exact congrArg (Trail.mk · (t.kept.map f)) (List.getD_map _ _ _)

/-- Two kinds of places that move alike leave the same trail. -/
theorem run_map (h : ∀ motion a, go' motion (f a) = f (go motion a)) (moves : List Move)
    (t : Trail α) : (t.map f).run go' moves = (t.run go moves).map f := by
  induction moves generalizing t with
  | nil => rfl
  | cons m moves ih =>
    rw [run, List.foldl_cons, step_map h]
    exact ih _

/-- What holds of all places of a trail. -/
structure All (P : α → Prop) (t : Trail α) : Prop where
  place : P t.place
  kept : ∀ a ∈ t.kept, P a

variable {P : α → Prop} {t : Trail α}

theorem All.start {a : α} (h : P a) : (Trail.start a).All P :=
  ⟨h, by simpa [Trail.start] using h⟩

theorem All.step (hgo : ∀ motion a, P a → P (go motion a)) (h : t.All P) (m : Move) :
    (t.step go m).All P := by
  cases m with
  | go motion => exact ⟨hgo motion _ h.place, h.kept⟩
  | save => exact ⟨h.place, List.forall_mem_cons.2 ⟨h.place, h.kept⟩⟩
  | restore i =>
    refine ⟨?_, h.kept⟩
    show P (t.kept.getD i t.place)
    rw [List.getD_eq_getElem?_getD]
    cases hi : t.kept[i]? with
    | none => exact h.place
    | some a => exact h.kept a (List.mem_of_getElem? hi)

theorem All.run (hgo : ∀ motion a, P a → P (go motion a)) (moves : List Move) (h : t.All P) :
    (t.run go moves).All P := by
  induction moves generalizing t with
  | nil => exact h
  | cons m moves ih => exact ih (h.step hgo m)

end Trail

def Cursor.go : Motion → Cursor → Cursor
  | .advance, c => c.advance
  | .eat expected, c => (c.eat expected).2
  | .skipWhile p, c => c.skipWhile p
  | .skipSpace, c => c.skipSpace

def OffsetCursor.go : Motion → OffsetCursor → OffsetCursor
  | .advance, m => m.advance
  | .eat expected, m => (m.eat expected).2
  | .skipWhile p, m => (m.eatWhile p).2
  | .skipSpace, m => m.skipSpace

/-- Every motion commutes with the passage to offsets. -/
theorem Cursor.go_toOffset (motion : Motion) (c : Cursor) :
    OffsetCursor.go motion c.toOffset = (c.go motion).toOffset := by
  cases motion with
  | advance => exact c.advance_toOffset
  | eat expected => exact congrArg Prod.snd (c.eat_toOffset expected)
  | skipWhile p => exact c.skipWhile_toOffset p
  | skipSpace => exact c.skipWhile_toOffset isSpace

theorem Cursor.le_go (motion : Motion) (c : Cursor) : c ≤ c.go motion := by
  cases motion with
  | advance => exact c.le_advance
  | eat expected =>
    show c ≤ (c.eat expected).2
    rw [Cursor.eat]
    split
    · exact c.le_advance
    · exact c.le_refl
  | skipWhile p => exact le_skipWhile p c
  | skipSpace => exact c.le_skipSpace

theorem Cursor.text_go (motion : Motion) {c : Cursor} {text : List Char} (h : c.text = text) :
    (c.go motion).text = text :=
  (Cursor.text_eq_of_le (c.le_go motion)).symm.trans h

/-- Only going back leads back. -/
theorem le_run {moves : List Move} (h : ∀ m ∈ moves, m.isRestore = false) (t : Trail Cursor) :
    t.place ≤ (t.run Cursor.go moves).place := by
  induction moves generalizing t with
  | nil => exact t.place.le_refl
  | cons m moves ih =>
    obtain ⟨hm, hmoves⟩ := List.forall_mem_cons.1 h
    have hstep : t.place ≤ (t.step Cursor.go m).place := by
      cases m with
      | go motion => exact t.place.le_go motion
      | save => exact t.place.le_refl
      | restore i => cases hm
    exact t.place.le_trans hstep (ih hmoves _)

/-- The places of a run from the start of a text. -/
def Cursor.trail (text : List Char) (moves : List Move) : Trail Cursor :=
  (Trail.start (.atStart text)).run Cursor.go moves

def OffsetCursor.trail (text : List Char) (moves : List Move) : Trail OffsetCursor :=
  (Trail.start (.atStart text)).run OffsetCursor.go moves

/-- **Every run stays at places of its text.** By their offsets alone the places are the same, and
whatever is asked there has the same answer. What is told of the text is true of it at every place
that was reached or kept. As long as no step goes back, the places lie in their order, and the text
between two of them is what was passed. -/
theorem placedIn_of_run (source : String) (moves : List Move) :
    OffsetCursor.trail source.toList moves =
        (Cursor.trail source.toList moves).map Cursor.toOffset ∧
      (Cursor.trail source.toList moves).All
        (fun c => c.toOffset.TellsOf c ∧ c.PlacedIn source.toList) ∧
      ∀ later c d, (∀ m ∈ later, m.isRestore = false) →
        (Cursor.trail source.toList moves).place = c →
        (Cursor.trail source.toList (moves ++ later)).place = d →
        c.offset ≤ d.offset ∧ ∃ w, Between c w d ∧ d.textFrom c.offset = w := by
  refine ⟨?_, ?_, ?_⟩
  · exact Trail.run_map Cursor.go_toOffset moves (.start (.atStart source.toList))
  · have htext : (Cursor.trail source.toList moves).All (·.text = source.toList) :=
      Trail.All.run (fun motion _ => Cursor.text_go motion) moves (.start rfl)
    have hplaced (c : Cursor) (hc : c.text = source.toList) :
        c.toOffset.TellsOf c ∧ c.PlacedIn source.toList :=
      ⟨OffsetCursor.tellsOf_toOffset c, hc ▸ c.placedIn_text⟩
    exact ⟨hplaced _ htext.place, fun c hc => hplaced c (htext.kept c hc)⟩
  · rintro later c d hlater rfl rfl
    have happend : Cursor.trail source.toList (moves ++ later) =
        (Cursor.trail source.toList moves).run Cursor.go later := List.foldl_append
    have hle := le_run hlater (Cursor.trail source.toList moves)
    rw [← happend] at hle
    obtain ⟨w, ha, -⟩ := id hle
    exact ⟨Cursor.offset_le_offset hle, w, ⟨hle, ha⟩, Cursor.textFrom_of_between ⟨hle, ha⟩⟩

/-- Back to a kept place before a character of two bytes, and then on to the end of the word. -/
theorem placedIn_of_run_of_restore :
    let moves : List Move := [.go .advance, .save, .go (.eat 'é'), .go .skipSpace, .restore 0]
    let c := (Cursor.trail "aé b".toList moves).place
    let d := (Cursor.trail "aé b".toList (moves ++ [.go (.skipWhile (· != ' '))])).place
    c.offset = 1 ∧ c.currentSpan.Covers ['a'] ['é'] ∧ c.textFrom 2 = [] ∧
      d.offset = 3 ∧ d.textFrom c.offset = ['é'] := by
  intro moves c d
  obtain ⟨-, hall, hlater⟩ := placedIn_of_run "aé b" moves
  have hc : c.PlacedIn "aé b".toList := hall.place.2
  have hspans := hc.spans_cover (by decide)
  obtain ⟨-, w, hbetween, htext⟩ := hlater [.go (.skipWhile (· != ' '))] c d (by decide) rfl rfl
  have hoffset : c.offset = 1 := by decide
  refine ⟨hoffset, hspans.current, hc.textFrom_of_not_boundary 2 (by decide), by decide, ?_⟩
  have hahead : ['é'] ++ d.ahead = w ++ d.ahead := hbetween.ahead
  rw [htext, ← List.append_cancel_right hahead]

end Destructure
