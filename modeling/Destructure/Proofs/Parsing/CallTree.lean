import Destructure.Proofs.Parsing.Brackets
import Destructure.Proofs.Parsing.Rounds
import Mathlib.Order.Interval.Finset.Nat

/-!
# Destructure.Proofs.Parsing.CallTree

How many calls of the pattern parser a step makes, where, and how deep in one another.

Design points:

* The tree of calls is the one that a step records. A call is told by its offset, that of the first
  character at or after which it was made that is no white space.
* `Walk` is what the parser did from one place to another. The calls are at places that climb from
  the first to the last one, so there are at most as many as places; and the depth is paid for by
  the brackets passed. A walk that goes on (`found`) has passed its last call.
* `slack` tells two kinds of walks apart. What a pattern is made of has none: no call is made where
  it starts, and every level of calls has a bracket of its own. One call adds one.
* What counts as a bracket is a parameter (`BracketCount`): brackets in string literals do not, but
  that can only be told where the separators of lists are no quotes.

Proof shape: one lemma for each way of putting steps together, so the lemma for a production follows
its definition.
-/

namespace Destructure

open Text

open Cursor (Between)

/-! ### Trees of calls -/

namespace ParseEvent

mutual

/-- The offsets of the calls of an event, in the order in which they were made. -/
def calls : ParseEvent → List Nat
  | .pattern offset inner => offset :: callsOf inner
  | .blank _ | .element .. | .arguments .. => []

/-- The offsets of the calls of events. -/
def callsOf : List ParseEvent → List Nat
  | [] => []
  | e :: es => e.calls ++ callsOf es

end

mutual

/-- How deep the calls of an event are nested. -/
def depth : ParseEvent → Nat
  | .pattern _ inner => depthOf inner + 1
  | .blank _ | .element .. | .arguments .. => 0

/-- How deep the calls of events are nested. -/
def depthOf : List ParseEvent → Nat
  | [] => 0
  | e :: es => max e.depth (depthOf es)

end

/-- The event is one of those, or happened while one of them did. -/
inductive Occurs (e : ParseEvent) : List ParseEvent → Prop where
  | here {es : List ParseEvent} : e ∈ es → Occurs e es
  | inside {es inner : List ParseEvent} {offset : Nat} : .pattern offset inner ∈ es →
      Occurs e inner → Occurs e es

@[simp] theorem callsOf_append (es es' : List ParseEvent) :
    callsOf (es ++ es') = callsOf es ++ callsOf es' := by
  induction es with
  | nil => rfl
  | cons e es ih => rw [List.cons_append, callsOf, callsOf, ih, List.append_assoc]

@[simp] theorem depthOf_append (es es' : List ParseEvent) :
    depthOf (es ++ es') = max (depthOf es) (depthOf es') := by
  induction es with
  | nil => exact (Nat.zero_max _).symm
  | cons e es ih => rw [List.cons_append, depthOf, depthOf, ih, Nat.max_assoc]

theorem calls_sublist {e : ParseEvent} {es : List ParseEvent} (h : e ∈ es) :
    e.calls.Sublist (callsOf es) := by
  induction es with
  | nil => cases h
  | cons e' es ih =>
    rw [callsOf]
    rcases List.mem_cons.1 h with rfl | h
    · exact List.sublist_append_left ..
    · exact (ih h).trans (List.sublist_append_right ..)

/-- The calls of an event that occurs are among all calls, in their order. -/
theorem Occurs.calls_sublist {e : ParseEvent} {es : List ParseEvent} (h : Occurs e es) :
    e.calls.Sublist (callsOf es) := by
  induction h with
  | here hmem => exact ParseEvent.calls_sublist hmem
  | inside hmem _ ih =>
    exact (ih.trans (List.sublist_cons_self ..)).trans (ParseEvent.calls_sublist hmem)

end ParseEvent

open ParseEvent (callsOf depthOf)

/-! ### Counting brackets -/

/-- A way to count the opening brackets of a text. After a `Closed` text it goes on as if that had
not been there. -/
structure BracketCount where
  count : List Char → Nat
  Closed : List Char → Prop
  count_append {v w : List Char} : Closed v → count (v ++ w) = count v + count w
  closed_append {v w : List Char} : Closed v → Closed w → Closed (v ++ w)
  closed_of_no_quote {w : List Char} : (∀ x ∈ w, x ≠ '\'' ∧ x ≠ '"') → Closed w
  closed_of_quoted {quote : Char} {s v : List Char} : quote = '\'' ∨ quote = '"' →
    Quoted quote s v → Closed (quote :: (s ++ [quote]))
  count_opening (b : Bracket) : count [b.opening] = 1

namespace BracketCount

variable {K : BracketCount}

/-- The texts of a class of characters without quotes are closed. -/
theorem closed_of_class {p : Char → Bool} (hp : p '\'' = false ∧ p '"' = false) {w : List Char}
    (hw : ∀ x ∈ w, p x = true) : K.Closed w := by
  refine K.closed_of_no_quote fun x hx => ⟨?_, ?_⟩
  · rintro rfl
    exact absurd (hw _ hx) (by simp [hp.1])
  · rintro rfl
    exact absurd (hw _ hx) (by simp [hp.2])

theorem closed_singleton {x : Char} (hx : x ≠ '\'' ∧ x ≠ '"') : K.Closed [x] :=
  K.closed_of_no_quote (List.forall_mem_singleton.2 hx)

theorem closed_of_spaces {u : List Char} (hu : Spaces u) : K.Closed u :=
  closed_of_class (by decide) hu

end BracketCount

/-- Where a scan is after one more character. -/
def ScanMode.next (mode : ScanMode) (x : Char) : ScanMode :=
  match mode with
  | .escaped quote => .inside quote
  | .inside quote =>
    if x = '\\' then .escaped quote else if x = quote then .outside else .inside quote
  | .outside => if x = '\'' ∨ x = '"' then .inside x else .outside

/-- How many brackets a text opens outside of string literals. -/
def openings (mode : ScanMode) : List Char → Nat
  | [] => 0
  | x :: t => (if mode = .outside ∧ (Bracket.opened? x).isSome then 1 else 0) +
      openings (mode.next x) t

theorem openings_append (mode : ScanMode) (v w : List Char) :
    openings mode (v ++ w) = openings mode v + openings (v.foldl ScanMode.next mode) w := by
  induction v generalizing mode with
  | nil => simp [openings]
  | cons x v ih => simp [openings, ih, Nat.add_assoc]

theorem foldl_next_quoted {quote : Char} {s v : List Char} (hquote : quote ≠ '\\')
    (h : Quoted quote s v) :
    (s ++ [quote]).foldl ScanMode.next (.inside quote) = .outside := by
  induction h with
  | nil => simp [ScanMode.next, hquote]
  | plain hc hb _ ih => simpa [ScanMode.next, hc, hb] using ih
  | escaped _ _ ih => simpa [ScanMode.next] using ih

namespace BracketCount

/-- Brackets in string literals do not count. -/
def unquoted : BracketCount where
  count := openings .outside
  Closed w := w.foldl ScanMode.next .outside = .outside
  count_append h := by rw [openings_append, h]
  closed_append hv hw := by rw [List.foldl_append, hv, hw]
  closed_of_no_quote {w} h := by
    induction w with
    | nil => rfl
    | cons x w ih =>
      have hx : ScanMode.outside.next x = .outside := by
        simp [ScanMode.next, h x List.mem_cons_self]
      rw [List.foldl_cons, hx]
      exact ih fun y hy => h y (List.mem_cons_of_mem _ hy)
  closed_of_quoted hquote h := by
    rw [List.foldl_cons]
    simp only [ScanMode.next, hquote, if_true]
    exact foldl_next_quoted (by rcases hquote with rfl | rfl <;> decide) h
  count_opening b := by cases b <;> rfl

/-- All brackets count. -/
def all : BracketCount where
  count := List.countP fun x => (Bracket.opened? x).isSome
  Closed _ := True
  count_append _ := List.countP_append
  closed_append _ _ := trivial
  closed_of_no_quote _ := trivial
  closed_of_quoted _ _ := trivial
  count_opening b := by cases b <;> rfl

end BracketCount

/-! ### Walks -/

namespace Cursor

variable {c d : Cursor}

/-- How many characters lie behind. -/
def position (c : Cursor) : Nat := c.behind.length

theorem position_le_position (h : c ≤ d) : c.position ≤ d.position := by
  obtain ⟨w, -, hb⟩ := h
  simp [position, hb]

theorem position_lt_position (h : c < d) : c.position < d.position := by
  obtain ⟨w, hw, -, hb⟩ := h
  have := List.length_pos_iff.2 hw
  simp [position, hb]
  omega

theorem lt_of_le_of_position_lt (h : c ≤ d) (hlt : c.position < d.position) : c < d := by
  obtain ⟨w, ha, hb⟩ := h
  refine ⟨w, ?_, ha, hb⟩
  rintro rfl
  simp [position, hb] at hlt

theorem offset_lt_offset (h : c < d) : c.offset < d.offset := by
  obtain ⟨w, hw, -, hb⟩ := h
  obtain ⟨x, v, rfl⟩ := List.exists_cons_of_ne_nil hw
  have := x.utf8Size_pos
  simp [c.offset_eq, d.offset_eq, hb]
  omega

theorem le_of_ahead {e : Cursor} {w : List Char} (hd : c ≤ d) (he : c ≤ e)
    (h : d.ahead = w ++ e.ahead) : d ≤ e := by
  obtain ⟨v, hv, hbv⟩ := hd
  obtain ⟨u, hu, hbu⟩ := he
  obtain rfl : u = v ++ w := List.append_cancel_right (by rw [← hu, hv, h, List.append_assoc])
  exact ⟨w, h, by rw [hbu, hbv, List.reverse_append, List.append_assoc]⟩

theorem le_of_offset_le {e : Cursor} (hd : c ≤ d) (he : c ≤ e) (h : d.offset ≤ e.offset) :
    d ≤ e := by
  obtain ⟨v, hv, hbv⟩ := hd
  obtain ⟨u, hu, hbu⟩ := he
  rcases List.append_eq_append_iff.1 (hv.symm.trans hu) with ⟨w, -, hw⟩ | ⟨w, rfl, hw⟩
  · exact le_of_ahead ⟨v, hv, hbv⟩ ⟨u, hu, hbu⟩ hw
  · cases w with
    | nil => exact le_of_ahead (w := []) ⟨_, hv, hbv⟩ ⟨u, hu, hbu⟩ hw.symm
    | cons x w =>
      have := x.utf8Size_pos
      simp [d.offset_eq, e.offset_eq, hbv, hbu] at h
      omega

/-- White space leads no further than to the next place without any. -/
theorem skipSpace_le (h : c ≤ d) (hd : d.skipSpace = d) : c.skipSpace ≤ d := by
  have hstay : d.ahead.dropWhile isSpace = d.ahead := congrArg ahead hd
  obtain ⟨w, hw, -⟩ := id h
  refine le_of_ahead (w := w.dropWhile isSpace) c.le_skipSpace h ?_
  rw [skipSpace, ahead_skipWhile, hw, List.dropWhile_append, hstay]
  split
  · rename_i hnil
    rw [List.isEmpty_iff.1 hnil, List.nil_append]
  · rfl

theorem offset_lt_of_lt_skipSpace {e : Cursor} (hd : c ≤ d) (he : c ≤ e) (hstay : d.skipSpace = d)
    (h : d.offset < e.skipSpace.offset) : d.offset < e.offset := by
  by_contra hle
  have hed := le_of_offset_le he hd (Nat.le_of_not_lt hle)
  have := offset_le_offset (skipSpace_le hed hstay)
  omega

theorem Between.lt {w : List Char} (h : Between c w d) (hw : w ≠ []) : c < d :=
  ⟨w, hw, h.ahead, h.behind⟩

theorem Between.position {w : List Char} (h : Between c w d) :
    d.position = c.position + w.length := by
  simp [Cursor.position, h.behind, Nat.add_comm]

theorem Between.unique {v w : List Char} (h : Between c v d) (h' : Between c w d) : v = w :=
  List.append_cancel_right (h.ahead.symm.trans h'.ahead)

end Cursor

/-- A call may be made at `p` on the way from `c` to `d`. -/
structure CallPlace (slack : Nat) (found : Bool) (c d p : Cursor) : Prop where
  ge : c ≤ p
  position_ge : c.position + 1 ≤ p.position + slack
  le : p ≤ d
  lt : found = true → p < d
  skipSpace_eq : p.skipSpace = p

/-- What the parser did from `c` to `d`, over the text `w` between them. -/
structure Walk (K : BracketCount) (slack : Nat) (found : Bool) (c : Cursor) (w : List Char)
    (d : Cursor) (es : List ParseEvent) : Prop where
  between : Between c w d
  closed : found = true → K.Closed w
  depth_le : depthOf es ≤ K.count w + slack
  places : ∃ ps : List Cursor, ps.map Cursor.offset = callsOf es ∧ ps.Pairwise (· < ·) ∧
    ∀ p ∈ ps, CallPlace slack found c d p

namespace Walk

variable {K : BracketCount} {slack : Nat} {found : Bool} {c d f : Cursor} {v w : List Char}
  {es es' : List ParseEvent}

/-- Nothing happened. -/
theorem passed (h : Between c w d) (hw : found = true → K.Closed w) : Walk K slack found c w d [] :=
  ⟨h, hw, Nat.zero_le _, [], rfl, .nil, nofun⟩

theorem refl (c : Cursor) : Walk K slack found c [] c [] :=
  passed (.refl c) fun _ => K.closed_of_no_quote nofun

theorem skipSpace (K : BracketCount) (slack : Nat) (found : Bool) (c : Cursor) :
    ∃ u, Walk K slack found c u c.skipSpace [] := by
  obtain ⟨u, hu, hcu⟩ := Between.exists_spaces c
  exact ⟨u, passed hcu fun _ => K.closed_of_spaces hu⟩

/-- One after the other. -/
theorem append (h : Walk K slack true c v d es) (h' : Walk K slack found d w f es') :
    Walk K slack found c (v ++ w) f (es ++ es') := by
  obtain ⟨ps, hps, hpair, hplace⟩ := h.places
  obtain ⟨ps', hps', hpair', hplace'⟩ := h'.places
  refine ⟨h.between.trans h'.between, fun hf => K.closed_append (h.closed rfl) (h'.closed hf), ?_,
    ps ++ ps', by simp [hps, hps'], ?_, fun p hp => ?_⟩
  · have := h.depth_le
    have := h'.depth_le
    rw [ParseEvent.depthOf_append, K.count_append (h.closed rfl)]
    omega
  · refine List.pairwise_append.2 ⟨hpair, hpair', fun p hp q hq => ?_⟩
    exact Cursor.lt_of_lt_of_le ((hplace p hp).lt rfl) (hplace' q hq).ge
  · rcases List.mem_append.1 hp with hp | hp
    · have hp := hplace p hp
      have hpf := Cursor.lt_of_lt_of_le (hp.lt rfl) h'.between.le
      exact { hp with le := Cursor.le_of_lt hpf, lt := fun _ => hpf }
    · have hp := hplace' p hp
      have := Cursor.position_le_position h.between.le
      have := hp.position_ge
      exact { hp with ge := c.le_trans h.between.le hp.ge, position_ge := by omega }

/-- Over text after which nothing happened. -/
theorem append_passed (h : Walk K slack true c v d es) (h' : Walk K slack found d w f []) :
    Walk K slack found c (v ++ w) f es := by
  have happend := h.append h'
  rwa [List.append_nil] at happend

/-- A walk that goes on may be told of as one that does not. -/
theorem weaken {found' : Bool} (h : Walk K slack found c w d es)
    (hfound : found' = true → found = true) : Walk K slack found' c w d es := by
  obtain ⟨ps, hps, hpair, hplace⟩ := h.places
  refine ⟨h.between, fun hf => h.closed (hfound hf), h.depth_le, ps, hps, hpair, fun p hp => ?_⟩
  exact { hplace p hp with lt := fun hf => (hplace p hp).lt (hfound hf) }

theorem slack_one (h : Walk K 0 found c w d es) : Walk K 1 found c w d es := by
  obtain ⟨ps, hps, hpair, hplace⟩ := h.places
  refine ⟨h.between, h.closed, Nat.le_succ_of_le h.depth_le, ps, hps, hpair, fun p hp => ?_⟩
  exact { hplace p hp with position_ge := Nat.le_succ_of_le (hplace p hp).position_ge }

/-- After an opening bracket one more level of calls is paid for. -/
theorem opened {b : Bracket} (hb : c.current = some b.opening)
    (h : Walk K 1 found c.advance w d es) : Walk K 0 found c (b.opening :: w) d es := by
  have hclosed : K.Closed [b.opening] := K.closed_singleton (by cases b <;> decide)
  obtain ⟨ps, hps, hpair, hplace⟩ := h.places
  refine ⟨.cons hb h.between, fun hf => K.closed_append hclosed (h.closed hf), ?_,
    ps, hps, hpair, fun p hp => ?_⟩
  · have hcount := K.count_append (w := w) hclosed
    rw [K.count_opening, List.singleton_append] at hcount
    have := h.depth_le
    omega
  · have hp := hplace p hp
    have := Cursor.position_le_position hp.ge
    have := Cursor.position_lt_position (Cursor.lt_advance hb)
    exact { hp with ge := c.le_trans c.le_advance hp.ge, position_ge := by omega }

/-- A call that is made at `c`. -/
theorem called (h : Walk K 0 found c w d es) (hc : c.skipSpace = c)
    (hlt : found = true → c < d) : Walk K 1 found c w d [.pattern c.offset es] := by
  obtain ⟨ps, hps, hpair, hplace⟩ := h.places
  refine ⟨h.between, h.closed, ?_, c :: ps, ?_, List.pairwise_cons.2 ⟨fun p hp => ?_, hpair⟩,
    List.forall_mem_cons.2 ⟨⟨c.le_refl, Nat.le_refl _, h.between.le, hlt, hc⟩, fun p hp => ?_⟩⟩
  · have := h.depth_le
    simp only [depthOf, ParseEvent.depth]
    omega
  · simp [callsOf, ParseEvent.calls, hps]
  · have := (hplace p hp).position_ge
    exact Cursor.lt_of_le_of_position_lt (hplace p hp).ge (by omega)
  · exact { hplace p hp with position_ge := Nat.le_succ_of_le (hplace p hp).position_ge }

/-- An event that is no call. -/
theorem noted {e : ParseEvent} (he : e.calls = []) (h : Walk K slack found c w d es) :
    Walk K slack found c w d (e :: es) := by
  have hzero : e.depth = 0 := by
    cases e with
    | pattern => cases he
    | blank | element | arguments => rfl
  refine ⟨h.between, h.closed, ?_, ?_⟩
  · rw [depthOf, hzero, Nat.zero_max]
    exact h.depth_le
  · rw [callsOf, he, List.nil_append]
    exact h.places

/-- There are no more calls than places for them. -/
theorem length_calls_le (h : Walk K slack found c w d es) :
    (callsOf es).length ≤ w.length + slack := by
  obtain ⟨ps, hps, hpair, hplace⟩ := h.places
  have hnodup : (ps.map Cursor.position).Nodup :=
    (List.pairwise_map.2 (hpair.imp Cursor.position_lt_position)).imp Nat.ne_of_lt
  have hsubset : (ps.map Cursor.position).toFinset ⊆
      Finset.Icc (c.position + 1 - slack) d.position := by
    intro n hn
    obtain ⟨p, hp, rfl⟩ := List.mem_map.1 (List.mem_toFinset.1 hn)
    have hge := (hplace p hp).position_ge
    have hle := Cursor.position_le_position (hplace p hp).le
    exact Finset.mem_Icc.2 ⟨by omega, hle⟩
  have hcard := Finset.card_le_card hsubset
  have hposition := h.between.position
  rw [List.toFinset_card_of_nodup hnodup, Nat.card_Icc, List.length_map] at hcard
  rw [← hps, List.length_map]
  omega

/-- What is called meanwhile is called further on, even if the white space before it is not
counted. -/
theorem lt_of_nested {offset : Nat} {inner : List ParseEvent} (h : Walk K slack found c w d es)
    (hcall : ParseEvent.Occurs (.pattern offset inner) es) {e : Cursor} (hce : c ≤ e)
    (he : e.skipSpace.offset ∈ callsOf inner) : offset < e.offset := by
  obtain ⟨ps, hps, hpair, hplace⟩ := h.places
  have hclimb : (callsOf es).Pairwise (· < ·) := by
    rw [← hps]
    exact List.pairwise_map.2 (hpair.imp Cursor.offset_lt_offset)
  have hlt : offset < e.skipSpace.offset :=
    (List.pairwise_cons.1 (hclimb.sublist hcall.calls_sublist)).1 _ he
  have hmem : offset ∈ ps.map Cursor.offset := by
    rw [hps]
    exact hcall.calls_sublist.subset List.mem_cons_self
  obtain ⟨p, hp, rfl⟩ := List.mem_map.1 hmem
  exact Cursor.offset_lt_of_lt_skipSpace (hplace p hp).ge hce (hplace p hp).skipSpace_eq hlt

end Walk

/-! ### Steps -/

namespace Step

variable {K : BracketCount} {slack : Nat} {α β : Type} {c d : Cursor}

/-- What the step does is a walk. -/
def Walks (K : BracketCount) (slack : Nat) (t : Step α c) : Prop :=
  ∃ w, Walk K slack t.result.isOk c w t.next t.events

theorem walks_done {a : α} {w : List Char} (h : Between c w d) (hw : K.Closed w) :
    (done a d h.le).Walks K slack := ⟨w, .passed h fun _ => hw⟩

theorem walks_fail {e : ParseError} (h : c ≤ d) : (fail e d h : Step α c).Walks K slack := by
  obtain ⟨w, hw, hb⟩ := h
  exact ⟨w, .passed ⟨⟨w, hw, hb⟩, hw⟩ nofun⟩

/-- A walk may begin earlier, with text in front of it that is passed over. -/
theorem Walks.since {t : Step α d} {w : List Char} (h : Between c w d) (hw : K.Closed w)
    (ht : t.Walks K slack) : (Step.since h.le t).Walks K slack := by
  obtain ⟨v, hv⟩ := ht
  exact ⟨w ++ v, (Walk.passed h fun _ => hw).append hv⟩

/-- Go on after an opening bracket, with white space on both sides of it. -/
theorem Walks.since_opened {b : Bracket} {e : Cursor} {u v : List Char} {t : Step α d}
    (hu : Walk K 0 true c u e []) (hb : e.current = some b.opening)
    (hv : Walk K 1 true e.advance v d []) (h : c ≤ d) (ht : t.Walks K 1) :
    (Step.since h t).Walks K 0 := by
  obtain ⟨w, hw⟩ := ht
  exact ⟨_, hu.append ((hv.append hw).opened hb)⟩

/-- Walks in sequence are a walk, since the first one has passed its last call. -/
theorem Walks.bind {t : Step α c} {k : α → (d : Cursor) → c ≤ d → Step β d}
    (ht : t.Walks K slack) (hk : ∀ a d h, t.Finds a d → (k a d h).Walks K slack) :
    (t.bind k).Walks K slack := by
  obtain ⟨w, hw⟩ := ht
  rcases bind_cases (u := t.bind k) rfl with
    ⟨e, he, hresult, hnext, hevents⟩ | ⟨a, v, ha, hv, hresult, hnext, hevents⟩
  · refine ⟨w, ?_⟩
    rw [hresult, hnext, hevents]
    exact hw.weaken nofun
  · obtain ⟨w', hw'⟩ := hk a _ t.le_next ⟨ha, rfl⟩
    subst hv
    refine ⟨w ++ w', ?_⟩
    rw [hresult, hnext, hevents]
    exact (hw.weaken fun _ => by rw [ha]; rfl).append hw'

theorem Walks.map {t : Step α c} (ht : t.Walks K slack) (g : α → β) :
    (t.map g).Walks K slack := by
  obtain ⟨w, hw⟩ := ht
  exact ⟨w, hw.weaken fun h => by revert h; unfold Step.map; cases t.result <;> exact id⟩

theorem Walks.within {t : Step α c} (ht : t.Walks K slack) (p : Production) :
    (t.within p).Walks K slack := by
  obtain ⟨w, hw⟩ := ht
  exact ⟨w, hw.weaken fun h => by revert h; unfold Step.within; cases t.result <;> exact id⟩

theorem Walks.after {t : Step α c} {e : ParseEvent} (ht : t.Walks K slack) (he : e.calls = []) :
    (t.after e).Walks K slack := by
  obtain ⟨w, hw⟩ := ht
  exact ⟨w, hw.noted he⟩

theorem exists_finds_of_isOk {t : Step α c} (h : t.result.isOk = true) : ∃ a, t.Finds a t.next := by
  cases ha : t.result with
  | error e =>
    rw [ha] at h
    cases h
  | ok a => exact ⟨a, ha, rfl⟩

theorem Walks.slack_one {t : Step α c} (ht : t.Walks K 0) : t.Walks K 1 := by
  obtain ⟨w, hw⟩ := ht
  exact ⟨w, hw.slack_one⟩

end Step

end Destructure
