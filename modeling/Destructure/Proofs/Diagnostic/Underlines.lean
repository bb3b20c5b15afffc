import Destructure.Diagnostic.Rendering
import Destructure.Proofs.Text.Offsets
import Mathlib

/-!
# Destructure.Proofs.Diagnostic.Underlines

Every span has an underline, and it points at the span: `underline_points_at_span`.

Design points:

* `Underline.locate` cuts a text into lists and can do nothing wrong. A program that has a text as
  bytes slices it at offsets, and each slice may be one that there is not. `Underline.locate?` is
  such a program. It never fails, and finds the same (`locate?_eq`).
* Where a span starts is a cut of the text (`LastCut`). The two sides of the cut tell all that there
  is to tell about the line.

Proof shape: the line around a cut is taken apart (`LineCut`), the text is put together from its
parts, and then each offset is the size of some of them.
-/

namespace Destructure

open Text

/-! ### The line around a cut -/

/-- The text on the line before the cut. -/
def lineLead (before : List Char) : List Char := (before.reverse.takeWhile (· != '\n')).reverse

/-- The text on the line after the cut. -/
def lineTail (after : List Char) : List Char := after.takeWhile (· != '\n')

/-- Where there is a cut, `earlier` comes before its line, and `later` after it. -/
structure LineCut (before after earlier later : List Char) : Prop where
  before_eq : before = earlier ++ lineLead before
  after_eq : after = lineTail after ++ later
  not_mem_lead : '\n' ∉ lineLead before
  not_mem_tail : '\n' ∉ lineTail after
  starts : earlier = [] ∨ ∃ e, earlier = e ++ ['\n']
  stops : later = [] ∨ ∃ l, later = '\n' :: l

theorem exists_rest_of_takeWhile (c : Char) (s : List Char) :
    ∃ rest, s = s.takeWhile (· != c) ++ rest ∧ c ∉ s.takeWhile (· != c) ∧
      (rest = [] ∨ ∃ r, rest = c :: r) := by
  induction s with
  | nil => exact ⟨[], rfl, List.not_mem_nil, .inl rfl⟩
  | cons d s ih =>
    obtain ⟨rest, hs, hc, hrest⟩ := ih
    by_cases hd : d = c
    · rw [List.takeWhile_cons_of_neg (by simp [hd])]
      exact ⟨d :: s, rfl, List.not_mem_nil, .inr ⟨s, by rw [hd]⟩⟩
    · rw [List.takeWhile_cons_of_pos (by simp [hd])]
      refine ⟨rest, congrArg (d :: ·) hs, ?_, hrest⟩
      exact List.not_mem_cons_of_ne_of_not_mem (Ne.symm hd) hc

theorem exists_lineCut (before after : List Char) :
    ∃ earlier later, LineCut before after earlier later := by
  obtain ⟨earlier, hbefore, hlead, hearlier⟩ := exists_rest_of_takeWhile '\n' before.reverse
  obtain ⟨later, hafter, htail, hlater⟩ := exists_rest_of_takeWhile '\n' after
  refine ⟨earlier.reverse, later, ?_, hafter, ?_, htail, ?_, hlater⟩
  · rw [lineLead, ← List.reverse_append, ← hbefore, List.reverse_reverse]
  · exact fun h => hlead (List.mem_reverse.1 h)
  · rcases hearlier with rfl | ⟨e, rfl⟩
    · exact .inl rfl
    · exact .inr ⟨e.reverse, List.reverse_cons⟩

section

variable {before after earlier later : List Char}

/-- The text as its earlier lines, the line of the cut, and its later lines. -/
theorem LineCut.append_eq (h : LineCut before after earlier later) :
    before ++ after = earlier ++ (lineLead before ++ lineTail after) ++ later := by
  conv_lhs => rw [h.before_eq, h.after_eq]
  simp only [List.append_assoc]

theorem LineCut.rfindByte?_eq (h : LineCut before after earlier later) :
    ((rfindByte? '\n' before).map (· + 1)).getD 0 = byteLength earlier := by
  rw [h.before_eq]
  rcases h.starts with rfl | ⟨e, rfl⟩
  · rw [List.nil_append, rfindByte?_eq_none h.not_mem_lead]
    rfl
  · rw [List.append_assoc, List.singleton_append, rfindByte?_append_cons e h.not_mem_lead,
      byteLength_append]
    rfl

theorem LineCut.findByte?_eq (h : LineCut before after earlier later) :
    ((findByte? '\n' after).map (byteLength before + ·)).getD (byteLength (before ++ after)) =
      byteLength before + byteLength (lineTail after) := by
  rcases h.stops with rfl | ⟨l, rfl⟩
  · have hafter : after = lineTail after := h.after_eq.trans (List.append_nil _)
    have hfind : findByte? '\n' after = none := by
      conv_lhs => rw [hafter]
      exact findByte?_eq_none h.not_mem_tail
    rw [hfind, Option.map_none, Option.getD_none, byteLength_append, ← hafter]
  · have hfind : findByte? '\n' after = some (byteLength (lineTail after)) := by
      conv_lhs => rw [h.after_eq]
      exact findByte?_append_cons h.not_mem_tail l
    rw [hfind]
    rfl

theorem LineCut.slice?_line (h : LineCut before after earlier later) :
    slice? (byteLength earlier) (byteLength before + byteLength (lineTail after))
      (before ++ after) = some (lineLead before ++ lineTail after) := by
  have hstop : byteLength (earlier ++ (lineLead before ++ lineTail after)) =
      byteLength before + byteLength (lineTail after) := by
    rw [← List.append_assoc, ← h.before_eq, byteLength_append]
  exact slice?_eq_some_iff.2 ⟨earlier, later, h.append_eq, rfl, hstop⟩

theorem LineCut.slice?_lead (h : LineCut before after earlier later) :
    slice? (byteLength earlier) (byteLength before) (before ++ after) = some (lineLead before) :=
  slice?_eq_some_iff.2 ⟨earlier, after, congrArg (· ++ after) h.before_eq, rfl,
    congrArg byteLength h.before_eq.symm⟩

theorem LineCut.slice?_tail (h : LineCut before after earlier later) {k : Nat}
    (hk : k ≤ byteLength (lineTail after)) :
    slice? (byteLength before) (byteLength before + k) (before ++ after) =
      (cutAtByte? k (lineTail after)).map (·.1) := by
  have htext : before ++ after = before ++ lineTail after ++ later := by
    rw [List.append_assoc, ← h.after_eq]
  rw [htext]
  exact slice?_append before (lineTail after) later hk

theorem length_splitOn (c : Char) (s : List Char) : (s.splitOn c).length = s.count c + 1 := by
  induction s with
  | nil => rw [List.splitOn_nil, List.count_nil, List.length_singleton]
  | cons d s ih =>
    rw [List.splitOn_cons_eq_if_modifyHead, List.count_cons]
    split
    · rw [List.length_cons, ih]
    · rw [List.length_modifyHead, ih, Nat.add_zero]

/-- As many lines come before as there are line breaks before the cut. -/
theorem LineCut.getElem?_splitOn (h : LineCut before after earlier later) :
    ((before ++ after).splitOn '\n')[before.count '\n']? =
      some (lineLead before ++ lineTail after) := by
  have hline : '\n' ∉ lineLead before ++ lineTail after :=
    fun hmem => (List.mem_append.1 hmem).elim h.not_mem_lead h.not_mem_tail
  have hsplit : ∃ lines, (lineLead before ++ lineTail after ++ later).splitOn '\n' =
      (lineLead before ++ lineTail after) :: lines := by
    rcases h.stops with rfl | ⟨l, rfl⟩
    · exact ⟨[], (List.append_nil _).symm ▸ List.splitOn_eq_singleton hline⟩
    · exact ⟨_, List.splitOn_append_cons_self_of_not_mem hline l⟩
  have hcount : before.count '\n' = earlier.count '\n' := by
    conv_lhs => rw [h.before_eq]
    rw [List.count_append, List.count_eq_zero.2 h.not_mem_lead, Nat.add_zero]
  obtain ⟨lines, hlines⟩ := hsplit
  rw [hcount, h.append_eq]
  rcases h.starts with rfl | ⟨e, rfl⟩
  · rw [List.nil_append, hlines]
    rfl
  · rw [List.append_assoc, List.append_assoc, List.singleton_append, List.splitOn_append_cons_self,
      hlines, List.count_append, List.count_singleton_self, ← length_splitOn,
      List.getElem?_append_right (Nat.le_refl _), Nat.sub_self]
    rfl

end

/-! ### Offsets that never fail -/

namespace Underline

/-- The underline of a span, by offsets into the text. -/
def locate? (text : List Char) (span : Span) : Option Underline := do
  let start ← lastBoundary? text (min span.start.toNat (byteLength text))
  let before ← slice? 0 start text
  let lineStart := ((rfindByte? '\n' before).map (· + 1)).getD 0
  let after ← slice? start (byteLength text) text
  let lineStop := ((findByte? '\n' after).map (start + ·)).getD (byteLength text)
  let line ← slice? lineStart lineStop text
  let lead ← slice? lineStart start text
  let stop ← clamp? span.stop.toNat start lineStop
  -- A stop inside a character fails this slice only, and then nothing is covered.
  let covered := ((slice? start stop text).map List.length).getD 0
  return ⟨line, lead.length, max 1 covered⟩

variable {text before after : List Char} {span : Span}

/-- How much of the line's rest is covered: as far as the span goes, but not past the line. -/
def coverSize (before after : List Char) (span : Span) : Nat :=
  min (span.stop.toNat - byteLength before) (byteLength (lineTail after))

/-- How many characters are covered. -/
def covered (before after : List Char) (span : Span) : Nat :=
  ((cutAtByte? (coverSize before after span) (lineTail after)).map (·.1.length)).getD 0

/-- The underline is told by the text before the start of the span and the text after it. -/
theorem locate_eq (h : LastCut span.start.toNat text before after) :
    locate text span = ⟨lineLead before ++ lineTail after, (lineLead before).length,
      max 1 (covered before after span)⟩ := by
  rw [locate, h.splitAtByte_eq]
  rfl

/-- **Offsets never fail**, and lead to the same underline. -/
theorem locate?_eq (text : List Char) (span : Span) :
    locate? text span = some (locate text span) := by
  have hcut := lastCut_splitAtByte span.start.toNat text
  generalize (splitAtByte span.start.toNat text).1 = before,
    (splitAtByte span.start.toNat text).2 = after at hcut
  obtain rfl := hcut.eq_append
  obtain ⟨earlier, later, hline⟩ := exists_lineCut before after
  have hbefore : slice? 0 (byteLength before) (before ++ after) = some before :=
    slice?_eq_some_iff.2 ⟨[], after, rfl, rfl, rfl⟩
  have hafter : slice? (byteLength before) (byteLength (before ++ after)) (before ++ after) =
      some after :=
    slice?_eq_some_iff.2 ⟨before, [], (List.append_nil _).symm, rfl, rfl⟩
  -- All that is left to fail is the stop, and there both sides cut the rest of the line.
  have hcovered := hline.slice?_tail (Nat.min_le_right (span.stop.toNat - byteLength before) _)
  rw [locate_eq hcut, locate?]
  simp only [lastBoundary?_eq hcut.of_end, hbefore, hafter, hline.rfindByte?_eq,
    hline.findByte?_eq, hline.slice?_line, hline.slice?_lead, clamp?_add, hcovered,
    Option.bind_eq_bind, Option.bind_some, Option.pure_def, Option.map_map]
  rfl

/-! ### What an underline says -/

theorem covered_le (before after : List Char) (span : Span) :
    covered before after span ≤ (lineTail after).length := by
  rw [covered]
  cases hcut : cutAtByte? (coverSize before after span) (lineTail after) with
  | none => exact Nat.zero_le _
  | some parts =>
    obtain ⟨inside, rest⟩ := parts
    rw [(cutAtByte?_eq_some.1 hcut).1, List.length_append]
    exact Nat.le_add_right _ _

theorem lineTail_append {a : List Char} (h : '\n' ∉ a) (b : List Char) :
    lineTail (a ++ b) = a ++ lineTail b := by
  refine List.takeWhile_append_of_pos fun c hc => bne_iff_ne.2 ?_
  rintro rfl
  exact h hc

/-- What comes after a stretch is on its first line only if there is no line break in it. -/
theorem min_byteLength_lineTail (inside rest : List Char) :
    ∃ y, lineTail (inside ++ rest) = lineTail inside ++ y ∧
      min (byteLength inside) (byteLength (lineTail (inside ++ rest))) =
        byteLength (lineTail inside) := by
  obtain ⟨later, hinside, hplain, hlater⟩ := exists_rest_of_takeWhile '\n' inside
  generalize inside.takeWhile (· != '\n') = t at hinside hplain
  subst hinside
  rcases hlater with rfl | ⟨r, rfl⟩
  · rw [List.append_nil]
    have htail : lineTail t = t := by
      conv_lhs => rw [← List.append_nil t, lineTail_append hplain]
      exact List.append_nil t
    rw [lineTail_append hplain, htail, byteLength_append]
    exact ⟨lineTail rest, rfl, Nat.min_eq_left (Nat.le_add_right _ _)⟩
  · have htail (b : List Char) : lineTail (t ++ '\n' :: b) = t := by
      rw [lineTail_append hplain]
      exact List.append_nil t
    rw [List.append_assoc, List.cons_append, htail, htail, byteLength_append]
    exact ⟨[], (List.append_nil t).symm, Nat.min_eq_right (Nat.le_add_right _ _)⟩

/-- A span that ends at a boundary covers its own first line. -/
theorem covered_of_boundary {inside rest : List Char}
    (hstop : byteLength (before ++ inside) = span.stop.toNat) :
    covered before (inside ++ rest) span = (lineTail inside).length := by
  obtain ⟨y, htail, hmin⟩ := min_byteLength_lineTail inside rest
  have hsize : coverSize before (inside ++ rest) span = byteLength (lineTail inside) := by
    rw [coverSize, ← hstop, byteLength_append, Nat.add_sub_cancel_left, hmin]
  rw [covered, hsize, htail, cutAtByte?_byteLength]
  rfl

/-- The underline says where the span is that starts between `before` and `after`. -/
structure PointsAt (u : Underline) (text before after : List Char) (span : Span) : Prop where
  line_eq : (text.splitOn '\n')[before.count '\n']? = some u.line
  cut_eq : ∃ lead tail, u.line = lead ++ tail ∧ lead <:+ before ∧ tail <+: after ∧
    u.column = lead.length
  width_pos : 1 ≤ u.width
  column_add_width_le : u.column + u.width ≤ u.line.length + 1
  /-- If both bounds are boundaries, what is covered is the first line of what lies between. -/
  width_eq : ∀ a inside rest, text = a ++ inside ++ rest → byteLength a = span.start.toNat →
    byteLength (a ++ inside) = span.stop.toNat →
    u.width = max 1 (inside.takeWhile (· != '\n')).length

theorem pointsAt_locate (h : LastCut span.start.toNat text before after) :
    (locate text span).PointsAt text before after span := by
  obtain rfl := h.eq_append
  obtain ⟨earlier, later, hline⟩ := exists_lineCut before after
  rw [locate_eq h]
  constructor
  · exact hline.getElem?_splitOn
  · exact ⟨_, _, rfl, ⟨_, hline.before_eq.symm⟩, ⟨_, hline.after_eq.symm⟩, rfl⟩
  · exact Nat.le_max_left _ _
  · have hcovered := covered_le before after span
    simp only [List.length_append]
    omega
  · intro a inside rest htext hstart hstop
    have hle := h.greatest a (inside ++ rest) (htext.trans (List.append_assoc _ _ _))
      (Nat.le_of_eq hstart)
    rw [List.append_assoc] at htext
    obtain ⟨rfl, rfl⟩ := cut_unique htext (Nat.le_antisymm (hstart ▸ h.le) hle)
    exact congrArg (max 1) (covered_of_boundary hstop)

end Underline

/-! ### Underlines in reports -/

/-- What a span is underlined with. -/
def Label.mark (l : Label) : Char := if l.isPrimary then '^' else '-'

/-- What is drawn left of every line. -/
def margin : List Char := "  | ".toList

namespace Diagnostic

/-- The line of a label as it is repeated. -/
def upperLine (u : Underline) : List Char := margin ++ u.line

/-- What is drawn below it, up to the last mark. -/
def lowerLine (mark : Char) (u : Underline) : List Char :=
  margin ++ List.replicate u.column ' ' ++ List.replicate u.width mark

/-- The report up to its first labels. -/
def upToLabels (d : Diagnostic) (labels : List Label) : Diagnostic :=
  { d with labels := labels, notes := [], suggestions := [] }

theorem toList_renderLabel (source : List Char) (l : Label) :
    ∃ ending, (renderLabel false source l).toList =
      upperLine (.locate source l.span) ++
        '\n' :: (lowerLine l.mark (.locate source l.span) ++ ending ++ ['\n']) := by
  refine ⟨(if l.message.isEmpty then "" else " " ++ l.message).toList, ?_⟩
  by_cases h : l.message.isEmpty = true <;>
    simp [renderLabel, upperLine, lowerLine, margin, Label.mark, Paint.on, h]

theorem toList_render_upToLabels (source : String) (d : Diagnostic) (ls : List Label) :
    (render false source (d.upToLabels ls)).toList =
      ("error [" ++ d.code.text ++ "]: " ++ d.message).toList ++ ['\n'] ++
        ls.flatMap fun l => (renderLabel false source.toList l).toList := by
  simp [render, upToLabels, Paint.on, List.flatMap_map]

theorem toList_render (source : String) {d : Diagnostic} {ls rs : List Label} {l : Label}
    (h : d.labels = ls ++ l :: rs) :
    ∃ below, (render false source d).toList =
      (render false source (d.upToLabels ls)).toList ++
        ((renderLabel false source.toList l).toList ++ below) := by
  rw [toList_render_upToLabels]
  refine ⟨(rs.flatMap fun l => (renderLabel false source.toList l).toList) ++
    (String.join (d.notes.map (renderRemark false .note "note")) ++
      String.join (d.suggestions.map (renderRemark false .help "help"))).toList, ?_⟩
  simp [render, Paint.on, List.flatMap_map, h]

/-- A report that was drawn up to some labels ends with a line. -/
theorem render_upToLabels_endsLine (source : String) (d : Diagnostic) (ls : List Label) :
    ∃ lines, (render false source (d.upToLabels ls)).toList = lines ++ ['\n'] := by
  rw [toList_render_upToLabels]
  rcases List.eq_nil_or_concat' ls with rfl | ⟨ls, l, rfl⟩
  · exact ⟨_, List.append_nil _⟩
  · obtain ⟨ending, hlabel⟩ := toList_renderLabel source.toList l
    rw [List.flatMap_append, List.flatMap_singleton, hlabel, ← List.cons_append,
      ← List.append_assoc, ← List.append_assoc, ← List.append_assoc]
    exact ⟨_, rfl⟩

/-- The first mark is as far from the margin as the underline says. -/
theorem idxOf_mark (l : Label) {u : Underline} (h : 1 ≤ u.width) :
    (lowerLine l.mark u).idxOf l.mark = margin.length + u.column := by
  have hmark : l.mark ∉ margin ++ List.replicate u.column ' ' := by
    have hmark : l.mark = '^' ∨ l.mark = '-' := by
      rw [Label.mark]
      split
      · exact .inl rfl
      · exact .inr rfl
    rcases hmark with hmark | hmark <;> rw [hmark] <;> simp [margin, List.mem_replicate]
  obtain ⟨width, hwidth⟩ := Nat.exists_eq_add_of_le' h
  rw [lowerLine, List.idxOf_append_of_notMem hmark, hwidth, List.replicate_succ,
    List.idxOf_cons_self, List.length_append, List.length_replicate, Nat.add_zero]

end Diagnostic

open Diagnostic

/-- **Underlines are total and point at the span.** Every span starts at some cut of the text, into
`before` and `after`: at its first offset, or at the last boundary that is not past it. No offset
that is computed from there fails, and the underline is on the line of the cut. In a report, a label
is drawn as the line and a line below it, where the first mark is under the first character of
`after`. At the end of a line that is the line break or nothing, and then the mark is just past the
line. -/
theorem underline_points_at_span (source : String) (span : Span) :
    ∃ before after u, LastCut span.start.toNat source.toList before after ∧
      Underline.locate source.toList span = u ∧ Underline.locate? source.toList span = some u ∧
      u.PointsAt source.toList before after span ∧
      ∀ (d : Diagnostic) (ls : List Label) (l : Label) (rs : List Label),
        d.labels = ls ++ l :: rs → l.span = span →
          (∃ above below, (render false source (d.upToLabels ls)).toList = above ++ ['\n'] ∧
            (render false source d).toList =
              above ++ '\n' :: upperLine u ++ '\n' :: lowerLine l.mark u ++ below) ∧
          (lowerLine l.mark u).idxOf l.mark = margin.length + u.column ∧
          (upperLine u)[margin.length + u.column]? = after.head?.filter (· != '\n') := by
  have hcut := lastCut_splitAtByte span.start.toNat source.toList
  refine ⟨_, _, _, hcut, rfl, Underline.locate?_eq _ _, Underline.pointsAt_locate hcut, ?_⟩
  rintro d ls l rs hlabels rfl
  refine ⟨?_, idxOf_mark l (Underline.width_pos _ _), ?_⟩
  · obtain ⟨above, habove⟩ := render_upToLabels_endsLine source d ls
    obtain ⟨below, hreport⟩ := toList_render source hlabels
    obtain ⟨ending, hlabel⟩ := toList_renderLabel source.toList l
    refine ⟨above, ending ++ '\n' :: below, habove, ?_⟩
    rw [hreport, habove, hlabel]
    simp only [List.append_assoc, List.cons_append, List.nil_append]
  · rw [Underline.locate_eq hcut, upperLine, List.getElem?_append_right (Nat.le_add_right _ _),
      Nat.add_sub_cancel_left, List.getElem?_append_right (Nat.le_refl _), Nat.sub_self,
      ← List.head?_eq_getElem?, lineTail, List.head?_takeWhile]

/-- The span of a character of two bytes, on the second line. -/
theorem underline_points_at_span_of_second_line :
    let source := "[a,\n bé]"
    let l : Label := ⟨true, ⟨6, 8⟩, "here"⟩
    let d : Diagnostic := ⟨.trailingInput, "", [l], [], []⟩
    ∃ before after u, LastCut 6 source.toList before after ∧
      Underline.locate? source.toList l.span = some u ∧ u.width = 1 ∧
      ∃ above below, (render false source d).toList =
        above ++ '\n' :: upperLine u ++ '\n' :: lowerLine '^' u ++ below := by
  intro source l d
  obtain ⟨before, after, u, hcut, -, hlocate, hpoints, hreport⟩ :=
    underline_points_at_span source l.span
  have hwidth : u.width = 1 :=
    hpoints.width_eq "[a,\n b".toList "é".toList "]".toList (by cbv) (by cbv) (by cbv)
  obtain ⟨⟨above, below, -, hlines⟩, -⟩ := hreport d [] l [] rfl rfl
  exact ⟨before, after, u, hcut, hlocate, hwidth, above, below, hlines⟩

end Destructure
