import Destructure.Text.Bytes
import Mathlib.Data.List.Basic

/-!
# Destructure.Proofs.Text.Offsets

A text that is cut and searched by byte offsets alone, where an offset can be a wrong one.

Design points:

* What fails on a wrong offset is none here. So that a computation with offsets never fails is that
  it is some (`slice?`, `clamp?`, `lastBoundary?`).
* The parts between offsets are lists of characters, and what an operation does is said for a text
  that was put together from them. Nothing has to be known of its bytes but how many there are.
* `LastCut` tells where a text is cut at an offset that may be a wrong one, without a computation.
-/

namespace Destructure.Text

variable {n : Nat} {c : Char} {s a b : List Char}

/-! ### Cuts -/

/-- A text that has two cuts at one offset has only one. -/
theorem cut_unique {a' b' : List Char} (h : a ++ b = a' ++ b')
    (hlength : byteLength a = byteLength a') : a = a' ∧ b = b' := by
  have hparts : (a, b) = (a', b') := by
    rw [← splitAtByte_byteLength a b, ← splitAtByte_byteLength a' b', h, hlength]
  exact Prod.mk.inj hparts

/-- Where a shorter part ends, the longer one goes on. -/
theorem prefix_of_byteLength_le {a' b' : List Char} (h : a ++ b = a' ++ b')
    (hle : byteLength a ≤ byteLength a') : a <+: a' := by
  have ha : a <+: a' ++ b' := ⟨b, h⟩
  rcases List.prefix_or_prefix_of_prefix ha (List.prefix_append a' b') with h' | ⟨x, rfl⟩
  · exact h'
  · rw [byteLength_append] at hle
    obtain rfl : x = [] := byteLength_eq_zero.1 (by omega)
    exact ⟨[], by simp only [List.append_nil]⟩

/-- The text is cut into `a` and `b` at the last boundary that is not past the offset. -/
structure LastCut (n : Nat) (s a b : List Char) : Prop where
  eq_append : s = a ++ b
  le : byteLength a ≤ n
  greatest : ∀ a' b', s = a' ++ b' → byteLength a' ≤ n → byteLength a' ≤ byteLength a

theorem lastCut_splitAtByte (n : Nat) (s : List Char) :
    LastCut n s (splitAtByte n s).1 (splitAtByte n s).2 := by
  refine ⟨(splitAtByte_append n s).symm, byteLength_splitAtByte_le n s, ?_⟩
  fun_induction splitAtByte n s with
  | case1 n =>
    intro a' b' h _
    obtain ⟨rfl, -⟩ := List.append_eq_nil_iff.1 h.symm
    exact Nat.le_refl _
  | case2 n c s hc parts ih =>
    intro a' b' h hle
    rcases List.cons_eq_append_iff.1 h with ⟨rfl, -⟩ | ⟨a', rfl, hs⟩
    · exact Nat.zero_le _
    · rw [byteLength_cons] at hle
      exact Nat.add_le_add_left (ih a' b' hs (by omega)) _
  | case3 n c s hc =>
    intro a' b' h hle
    rcases List.cons_eq_append_iff.1 h with ⟨rfl, -⟩ | ⟨a', rfl, -⟩
    · exact Nat.le_refl _
    -- The first character alone is past the offset.
    · rw [byteLength_cons] at hle
      omega

theorem LastCut.splitAtByte_eq (h : LastCut n s a b) : splitAtByte n s = (a, b) := by
  have h' := lastCut_splitAtByte n s
  have hlength := Nat.le_antisymm (h.greatest _ _ h'.eq_append h'.le)
    (h'.greatest _ _ h.eq_append h.le)
  obtain ⟨ha, hb⟩ := cut_unique (h'.eq_append.symm.trans h.eq_append) hlength
  exact Prod.ext ha hb

/-- An offset inside the character after `a`, or right before it, has its cut after `a`. -/
theorem LastCut.of_lt (hs : s = a ++ c :: b) (hle : byteLength a ≤ n)
    (hlt : n < byteLength (a ++ [c])) : LastCut n s a (c :: b) := by
  refine ⟨hs, hle, fun a' b' hs' hle' => Nat.le_of_not_lt fun hgreater => ?_⟩
  have hshort : byteLength a ≤ byteLength a' := Nat.le_of_lt hgreater
  obtain ⟨y, rfl⟩ := prefix_of_byteLength_le (hs.symm.trans hs') hshort
  rw [List.append_assoc] at hs'
  have hrest := List.append_cancel_left (hs.symm.trans hs')
  rw [byteLength_append] at hle' hgreater hlt
  cases y with
  | nil => simp at hgreater
  | cons d y =>
    obtain ⟨rfl, -⟩ := List.cons.inj hrest
    rw [byteLength_cons] at hle' hlt
    rw [byteLength_nil] at hlt
    omega

/-- Any offset down to the cut has the same cut. -/
theorem LastCut.mono {m : Nat} (h : LastCut n s a b) (hm : m ≤ n) (ha : byteLength a ≤ m) :
    LastCut m s a b where
  eq_append := h.eq_append
  le := ha
  greatest := fun a' b' hs hle => h.greatest a' b' hs (Nat.le_trans hle hm)

/-- An offset past the end has the cut at the end. -/
theorem LastCut.of_end (h : LastCut n s a b) : LastCut (min n (byteLength s)) s a b := by
  refine h.mono (Nat.min_le_left _ _) (Nat.le_min.2 ⟨h.le, ?_⟩)
  rw [h.eq_append, byteLength_append]
  exact Nat.le_add_right _ _

/-! ### Boundaries -/

/-- Is the offset the start of a character, or the end of the text? -/
def isBoundary (n : Nat) (s : List Char) : Bool := byteLength (splitAtByte n s).1 == n

theorem isBoundary_iff : isBoundary n s = true ↔ ∃ a b, s = a ++ b ∧ byteLength a = n := by
  rw [isBoundary, beq_iff_eq]
  constructor
  · exact fun h => ⟨_, _, (splitAtByte_append n s).symm, h⟩
  · rintro ⟨a, b, rfl, rfl⟩
    rw [splitAtByte_byteLength]

/-- The first boundary on the way down from an offset, in steps of one. There is no step down from
zero. -/
def lastBoundary? (s : List Char) : Nat → Option Nat
  | 0 => if isBoundary 0 s then some 0 else none
  | n + 1 => if isBoundary (n + 1) s then some (n + 1) else lastBoundary? s n

/-- The way down ends at the cut: as long as it goes on, the cut stays the same. -/
theorem lastBoundary?_eq (h : LastCut n s a b) : lastBoundary? s n = some (byteLength a) := by
  induction n with
  | zero =>
    have ha : byteLength a = 0 := Nat.le_zero.1 h.le
    rw [lastBoundary?, if_pos (isBoundary_iff.2 ⟨a, b, h.eq_append, ha⟩), ha]
  | succ n ih =>
    rw [lastBoundary?]
    split
    · rename_i hboundary
      obtain ⟨a', b', hs, ha'⟩ := isBoundary_iff.1 hboundary
      rw [Nat.le_antisymm h.le (ha' ▸ h.greatest a' b' hs (Nat.le_of_eq ha'))]
    · rename_i hboundary
      have hne : byteLength a ≠ n + 1 :=
        fun ha => hboundary (isBoundary_iff.2 ⟨a, b, h.eq_append, ha⟩)
      have hle := h.le
      exact ih (h.mono (Nat.le_succ n) (by omega))

/-! ### Slices -/

/-- The text between two offsets. They have to be boundaries, and in order. -/
def slice? (i j : Nat) (s : List Char) : Option (List Char) :=
  if i ≤ j ∧ isBoundary i s ∧ isBoundary j s then
    some (splitAtByte (j - i) (splitAtByte i s).2).1
  else none

theorem slice?_eq_some_iff {i j : Nat} {m : List Char} :
    slice? i j s = some m ↔
      ∃ a b, s = a ++ m ++ b ∧ byteLength a = i ∧ byteLength (a ++ m) = j := by
  constructor
  · intro h
    simp only [slice?, Option.ite_none_right_eq_some, isBoundary_iff] at h
    obtain ⟨⟨hle, ⟨a, b, rfl, rfl⟩, a', b', hs, rfl⟩, hm⟩ := h
    -- Two cuts of one text, and the second is not before the first.
    obtain ⟨m', rfl⟩ := prefix_of_byteLength_le hs hle
    rw [List.append_assoc] at hs
    obtain rfl := List.append_cancel_left hs
    rw [byteLength_append, Nat.add_sub_cancel_left, splitAtByte_byteLength,
      splitAtByte_byteLength] at hm
    obtain rfl := Option.some.inj hm
    exact ⟨a, b', (List.append_assoc a m' b').symm, rfl, rfl⟩
  · rintro ⟨a, b, rfl, rfl, rfl⟩
    have hstart : isBoundary (byteLength a) (a ++ m ++ b) = true :=
      isBoundary_iff.2 ⟨a, m ++ b, List.append_assoc a m b, rfl⟩
    have hstop : isBoundary (byteLength (a ++ m)) (a ++ m ++ b) = true :=
      isBoundary_iff.2 ⟨a ++ m, b, rfl, rfl⟩
    have hle : byteLength a ≤ byteLength (a ++ m) := by
      rw [byteLength_append]
      exact Nat.le_add_right _ _
    rw [slice?, if_pos ⟨hle, hstart, hstop⟩, byteLength_append, Nat.add_sub_cancel_left,
      List.append_assoc, splitAtByte_byteLength, splitAtByte_byteLength]

/-- From a boundary on, a slice is a cut of what follows. It does not matter what follows later. -/
theorem slice?_append {k : Nat} (a t b : List Char) (hk : k ≤ byteLength t) :
    slice? (byteLength a) (byteLength a + k) (a ++ t ++ b) = (cutAtByte? k t).map (·.1) := by
  ext m
  rw [slice?_eq_some_iff, Option.map_eq_some_iff]
  constructor
  · rintro ⟨a', b', hs, ha', hm⟩
    rw [List.append_assoc, List.append_assoc] at hs
    obtain ⟨rfl, hrest⟩ := cut_unique hs ha'.symm
    rw [byteLength_append, Nat.add_left_cancel_iff] at hm
    have hle : byteLength m ≤ byteLength t := by rw [hm]; exact hk
    obtain ⟨x, rfl⟩ := prefix_of_byteLength_le hrest.symm hle
    exact ⟨(m, x), cutAtByte?_eq_some.2 ⟨rfl, hm⟩, rfl⟩
  · rintro ⟨⟨m', x⟩, hcut, rfl⟩
    obtain ⟨rfl, rfl⟩ := cutAtByte?_eq_some.1 hcut
    exact ⟨a, x ++ b, by simp only [List.append_assoc], rfl, byteLength_append a m'⟩

/-- Up to a boundary, a slice is a cut of what comes before it. It does not matter what follows. -/
theorem slice?_append_left (n : Nat) (t b : List Char) :
    slice? n (byteLength t) (t ++ b) = (cutAtByte? n t).map (·.2) := by
  ext m
  rw [slice?_eq_some_iff, Option.map_eq_some_iff]
  constructor
  · rintro ⟨a, b', hs, ha, hm⟩
    obtain ⟨rfl, -⟩ := cut_unique hs hm.symm
    exact ⟨(a, m), cutAtByte?_eq_some.2 ⟨rfl, ha⟩, rfl⟩
  · rintro ⟨⟨a, m'⟩, hcut, rfl⟩
    obtain ⟨rfl, ha⟩ := cutAtByte?_eq_some.1 hcut
    exact ⟨a, b, rfl, ha, rfl⟩

/-! ### Searching -/

/-- The offset of the first occurrence of a character. -/
def findByte? (c : Char) : List Char → Option Nat
  | [] => none
  | d :: s => if d = c then some 0 else (findByte? c s).map (d.utf8Size + ·)

/-- The offset of the last occurrence of a character. -/
def rfindByte? (c : Char) : List Char → Option Nat
  | [] => none
  | d :: s =>
    match rfindByte? c s with
    | some n => some (d.utf8Size + n)
    | none => if d = c then some 0 else none

theorem findByte?_eq_none (h : c ∉ s) : findByte? c s = none := by
  induction s with
  | nil => rfl
  | cons d s ih =>
    obtain ⟨hd, hs⟩ := List.ne_and_not_mem_of_not_mem_cons h
    rw [findByte?, if_neg (Ne.symm hd), ih hs, Option.map_none]

theorem findByte?_append_cons (h : c ∉ a) (b : List Char) :
    findByte? c (a ++ c :: b) = some (byteLength a) := by
  induction a with
  | nil => exact if_pos rfl
  | cons d a ih =>
    obtain ⟨hd, ha⟩ := List.ne_and_not_mem_of_not_mem_cons h
    rw [List.cons_append, findByte?, if_neg (Ne.symm hd), ih ha, Option.map_some, byteLength_cons]

theorem rfindByte?_eq_none (h : c ∉ s) : rfindByte? c s = none := by
  induction s with
  | nil => rfl
  | cons d s ih =>
    obtain ⟨hd, hs⟩ := List.ne_and_not_mem_of_not_mem_cons h
    rw [rfindByte?, ih hs]
    exact if_neg (Ne.symm hd)

theorem rfindByte?_append_cons (a : List Char) (h : c ∉ b) :
    rfindByte? c (a ++ c :: b) = some (byteLength a) := by
  induction a with
  | nil =>
    rw [List.nil_append, rfindByte?, rfindByte?_eq_none h]
    exact if_pos rfl
  | cons d a ih => rw [List.cons_append, rfindByte?, ih, byteLength_cons]

/-! ### Limits -/

/-- The number, or the limit that it is past. The limits have to be in order. -/
def clamp? (n low high : Nat) : Option Nat :=
  if low ≤ high then some (max low (min n high)) else none

theorem clamp?_add (n low width : Nat) :
    clamp? n low (low + width) = some (low + min (n - low) width) := by
  rw [clamp?, if_pos (Nat.le_add_right low width)]
  exact congrArg some (by omega)

end Destructure.Text
