import Destructure.Proofs.Diagnostic.Underlines

/-!
# Destructure.Proofs.Diagnostic.Clamping

Which spans are underlined as if their bounds were moved back to character boundaries first.

A start always is. A stop is not if it lies inside a character: then the slice of the line that is
to be covered fails, nothing is covered, and the underline is one column wide. That is a loss as
soon as two whole characters of the span lie before that character (`locate_clampTo_eq_iff`).

Proof shape: both underlines have the same line and column. How many columns they cover is read off
the cut of the line's rest at the stop (`byteLength_cut_lineTail`): the moved stop covers what lies
before that cut, and the stop itself covers it only if it is the cut.
-/

namespace Destructure

open Text

/-- The span with its bounds moved back to the nearest boundaries of the text. -/
def Span.clampTo (text : List Char) (span : Span) : Span :=
  .ofOffsets (byteLength (splitAtByte span.start.toNat text).1)
    (byteLength (splitAtByte span.stop.toNat text).1)

/-- The stop lies inside the character `x`, with the characters `inside` of the same line between
the cut at the start and `x`. -/
structure Span.StopsInside (span : Span) (text before inside : List Char) (x : Char)
    (rest : List Char) : Prop where
  cut : LastCut span.start.toNat text before (inside ++ x :: rest)
  not_mem_inside : '\n' ∉ inside
  lt_stop : byteLength (before ++ inside) < span.stop.toNat
  stop_lt : span.stop.toNat < byteLength (before ++ inside ++ [x])

section

variable {text before after inside rest a b i j : List Char} {x : Char} {n : Nat} {span : Span}

theorem toNat_bound_cut (offset : UInt32) (h : LastCut offset.toNat text a b) :
    (Span.bound (byteLength a)).toNat = byteLength a := by
  have hle := h.le
  have hlt := offset.toNat_lt
  exact Span.toNat_bound_of_le (by rw [Span.maxOffset]; omega)

theorem clampTo_start (h : LastCut span.start.toNat text a b) :
    (span.clampTo text).start.toNat = byteLength a := by
  rw [Span.clampTo, h.splitAtByte_eq]
  exact toNat_bound_cut span.start h

theorem clampTo_stop (h : LastCut span.stop.toNat text a b) :
    (span.clampTo text).stop.toNat = byteLength a := by
  rw [Span.clampTo, h.splitAtByte_eq]
  exact toNat_bound_cut span.stop h

/-- A moved start has the same cut. -/
theorem Text.LastCut.clampTo (h : LastCut span.start.toNat text before after) :
    LastCut (span.clampTo text).start.toNat text before after := by
  rw [clampTo_start h]
  exact h.mono h.le (Nat.le_refl _)

/-! ### The cut of the line's rest at the stop -/

/-- The line's rest and the whole text have the same cut at the stop, up to the end of the line. -/
theorem byteLength_cut_lineTail (h : LastCut n (before ++ after) a b)
    (hcut : LastCut (min (n - byteLength before) (byteLength (lineTail after))) (lineTail after)
      i j) :
    byteLength i = min (byteLength a - byteLength before) (byteLength (lineTail after)) := by
  obtain ⟨later, hafter, -, -⟩ := exists_rest_of_takeWhile '\n' after
  have hafter : after = lineTail after ++ later := hafter
  have hle := hcut.le
  have hale := h.le
  refine Nat.le_antisymm ?_ ?_
  · by_cases hn : byteLength before ≤ n
    · have hi : before ++ after = (before ++ i) ++ (j ++ later) := by
        conv_lhs => rw [hafter, hcut.eq_append]
        simp only [List.append_assoc]
      have hgreatest := h.greatest _ _ hi (by rw [byteLength_append]; omega)
      rw [byteLength_append] at hgreatest
      omega
    · omega
  · by_cases hbefore : byteLength before ≤ byteLength a
    · obtain ⟨a', rfl⟩ := prefix_of_byteLength_le h.eq_append hbefore
      have happend := h.eq_append
      rw [List.append_assoc] at happend
      have hrest : lineTail after ++ later = a' ++ b := by
        rw [← hafter, List.append_cancel_left happend]
      rw [byteLength_append] at hale ⊢
      by_cases hline : byteLength a' ≤ byteLength (lineTail after)
      · obtain ⟨y, hy⟩ := prefix_of_byteLength_le hrest.symm hline
        have hgreatest := hcut.greatest a' y hy.symm (by omega)
        omega
      · have hgreatest := hcut.greatest _ [] (List.append_nil _).symm (by omega)
        omega
    · omega

/-- A stop inside a character cuts the line's rest before that character. -/
theorem Span.StopsInside.cut_lineTail
    (h : span.StopsInside (before ++ after) before inside x rest) :
    ∃ j, LastCut (Underline.coverSize before after span) (lineTail after) inside j ∧
      byteLength inside ≠ Underline.coverSize before after span := by
  obtain ⟨hcut, hinside, hlt, hstop⟩ := h
  obtain rfl := List.append_cancel_left hcut.eq_append
  rw [List.append_assoc] at hstop
  rw [byteLength_append] at hlt hstop
  -- A line break has no inside, so all of the character is on the line.
  have hx : x ≠ '\n' := by
    rintro rfl
    rw [byteLength_append, byteLength_cons, byteLength_nil] at hstop
    have hone : '\n'.utf8Size = 1 := rfl
    omega
  have hline : lineTail (inside ++ x :: rest) = inside ++ x :: lineTail rest := by
    rw [Underline.lineTail_append hinside]
    exact congrArg (inside ++ ·) (List.takeWhile_cons_of_pos (by simp [hx]))
  have hsize : byteLength (inside ++ [x]) ≤ byteLength (inside ++ x :: lineTail rest) := by
    rw [byteLength_append, byteLength_append, byteLength_cons, byteLength_cons, byteLength_nil]
    omega
  rw [Underline.coverSize, hline]
  exact ⟨_, .of_lt rfl (by omega) (by omega), by omega⟩

/-- If the stop is no cut of the line's rest, it lies inside the character after the cut. -/
theorem exists_stopsInside (h : LastCut span.start.toNat (before ++ after) before after)
    (hcut : LastCut (Underline.coverSize before after span) (lineTail after) i j)
    (hne : byteLength i ≠ Underline.coverSize before after span) :
    ∃ x rest, span.StopsInside (before ++ after) before i x rest := by
  obtain ⟨later, hafter, hplain, -⟩ := exists_rest_of_takeWhile '\n' after
  have hafter : after = lineTail after ++ later := hafter
  have hplain : '\n' ∉ lineTail after := hplain
  have hle := hcut.le
  rw [Underline.coverSize] at hle hne
  cases j with
  | nil =>
    have hend := congrArg byteLength hcut.eq_append
    rw [List.append_nil] at hend
    omega
  | cons x j =>
    have hsplit : lineTail after = (i ++ [x]) ++ j := by
      rw [hcut.eq_append, List.append_assoc, List.singleton_append]
    have hpos := Char.utf8Size_pos x
    have hlong : ¬ byteLength (i ++ [x]) ≤
        min (span.stop.toNat - byteLength before) (byteLength (lineTail after)) := by
      intro hshort
      have hgreatest := hcut.greatest _ _ hsplit hshort
      rw [byteLength_append, byteLength_cons, byteLength_nil] at hgreatest
      omega
    have hsize := congrArg byteLength hsplit
    rw [byteLength_append] at hsize
    have hi : '\n' ∉ i := fun hmem =>
      hplain (hsplit ▸ List.mem_append_left _ (List.mem_append_left _ hmem))
    refine ⟨x, j ++ later, ?_, hi, ?_, ?_⟩
    · rw [← List.cons_append, ← List.append_assoc, ← hcut.eq_append, ← hafter]
      exact h
    · rw [byteLength_append]
      omega
    · rw [List.append_assoc, byteLength_append]
      omega

/-! ### What is covered -/

/-- A stop that was moved back covers all whole characters before it. -/
theorem covered_clampTo
    (hcut : LastCut (Underline.coverSize before after span) (lineTail after) i j) :
    Underline.covered before after (span.clampTo (before ++ after)) = i.length := by
  have hstop := lastCut_splitAtByte span.stop.toNat (before ++ after)
  have hsize : Underline.coverSize before after (span.clampTo (before ++ after)) =
      byteLength i := by
    rw [Underline.coverSize, clampTo_stop hstop, byteLength_cut_lineTail hstop hcut]
  rw [Underline.covered, hsize, hcut.eq_append, cutAtByte?_byteLength]
  rfl

/-- A stop covers the whole characters before it only if the last of them ends there. -/
theorem covered_eq_ite
    (hcut : LastCut (Underline.coverSize before after span) (lineTail after) i j) :
    Underline.covered before after span =
      if byteLength i = Underline.coverSize before after span then i.length else 0 := by
  rw [Underline.covered, cutAtByte?, hcut.splitAtByte_eq]
  dsimp only
  split <;> rfl

/-- A stop inside a character leaves one column, however much lies before it. -/
theorem Span.StopsInside.width_locate (h : span.StopsInside text before inside x rest) :
    (Underline.locate text span).width = 1 ∧
      (Underline.locate text (span.clampTo text)).width = max 1 inside.length := by
  have hstart := h.cut
  obtain rfl := hstart.eq_append
  obtain ⟨j, hcut, hne⟩ := h.cut_lineTail
  rw [Underline.locate_eq hstart.clampTo, Underline.locate_eq hstart, covered_clampTo hcut,
    covered_eq_ite hcut, if_neg hne]
  exact ⟨rfl, rfl⟩

/-- A stop that lies in no character is as good as one that was moved back. -/
theorem locate_clampTo_of_not_stopsInside
    (h : ∀ before inside x rest, ¬ span.StopsInside text before inside x rest) :
    Underline.locate text (span.clampTo text) = Underline.locate text span := by
  have hstart := lastCut_splitAtByte span.start.toNat text
  generalize (splitAtByte span.start.toNat text).1 = before,
    (splitAtByte span.start.toNat text).2 = after at hstart
  obtain rfl := hstart.eq_append
  have hcut := lastCut_splitAtByte (Underline.coverSize before after span) (lineTail after)
  generalize (splitAtByte (Underline.coverSize before after span) (lineTail after)).1 = i,
    (splitAtByte (Underline.coverSize before after span) (lineTail after)).2 = j at hcut
  have heq : byteLength i = Underline.coverSize before after span := by
    by_contra hne
    obtain ⟨x, rest, hstops⟩ := exists_stopsInside hstart hcut hne
    exact h _ _ _ _ hstops
  rw [Underline.locate_eq hstart.clampTo, Underline.locate_eq hstart, covered_clampTo hcut,
    covered_eq_ite hcut, if_pos heq]

/-- Wherever the stop lies, the line and the column stay. -/
theorem locate_clampTo_eq_iff_width (text : List Char) (span : Span) :
    Underline.locate text (span.clampTo text) = Underline.locate text span ↔
      (Underline.locate text (span.clampTo text)).width =
        (Underline.locate text span).width := by
  have hstart := lastCut_splitAtByte span.start.toNat text
  rw [Underline.locate_eq hstart.clampTo, Underline.locate_eq hstart, Underline.mk.injEq]
  simp only [true_and]

end

/-- **Moving the bounds back changes no underline**, but for those of spans that stop inside a
character, with two or more whole characters before it on the line: these have one column instead of
one for each of those characters. -/
theorem locate_clampTo_eq_iff (text : List Char) (span : Span) :
    (Underline.locate text (span.clampTo text) = Underline.locate text span ↔
      ¬ ∃ before inside x rest, span.StopsInside text before inside x rest ∧
        2 ≤ inside.length) ∧
    ∀ before inside x rest, span.StopsInside text before inside x rest →
      (Underline.locate text span).width = 1 ∧
        (Underline.locate text (span.clampTo text)).width = max 1 inside.length := by
  refine ⟨?_, fun _ _ _ _ hstops => hstops.width_locate⟩
  constructor
  · rintro heq ⟨before, inside, x, rest, hstops, hlength⟩
    obtain ⟨hone, hmany⟩ := hstops.width_locate
    rw [heq, hone] at hmany
    omega
  · intro h
    by_cases hinside : ∃ before inside x rest, span.StopsInside text before inside x rest
    -- With at most one character before it, both have one column.
    · obtain ⟨before, inside, x, rest, hstops⟩ := hinside
      obtain ⟨hone, hmany⟩ := hstops.width_locate
      have hshort : ¬ 2 ≤ inside.length := fun hlength => h ⟨_, _, _, _, hstops, hlength⟩
      rw [locate_clampTo_eq_iff_width, hone, hmany]
      omega
    · exact locate_clampTo_of_not_stopsInside fun before inside x rest hstops =>
        hinside ⟨before, inside, x, rest, hstops⟩

/-- A span of two characters that stops inside a third is underlined by one column, and by two if
its stop is moved back. -/
theorem locate_clampTo_ne :
    Underline.locate "abé".toList ((⟨0, 3⟩ : Span).clampTo "abé".toList) =
        ⟨"abé".toList, 0, 2⟩ ∧
      Underline.locate "abé".toList ⟨0, 3⟩ = ⟨"abé".toList, 0, 1⟩ := by
  decide

end Destructure
