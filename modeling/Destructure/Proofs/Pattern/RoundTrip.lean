import Destructure.Pattern.Text
import Destructure.Proofs.Parsing.Completeness

/-!
# Destructure.Proofs.Pattern.RoundTrip

Reading the canonical text of a pattern gives the pattern back: `parse_text_of_isSpellable`.

It cannot do so for every tree. A name may be no word, a binder may be called `null`, a blank may
stand where no slot is, a number may need two digits after the point. `Pattern.isSpellable` is what
remains, and it can be computed.

Proof shape: what is written spells the pattern (`Pattern.writes`), by induction on the tree, and
what spells a pattern is read as it. So no parser is opened here. The induction is about any class
of numbers whose texts spell them (`WritesNumbers`), and says nothing about digits.
-/

namespace Destructure

open Text

/-! ### Numbers -/

/-- Digits, and then at most a point with one digit. -/
def isPlainNumeral (s : List Char) : Bool :=
  !(s.takeWhile Char.isDigit).isEmpty &&
    match s.dropWhile Char.isDigit with
    | [] => true
    | ['.', t] => t.isDigit
    | _ => false

/-- A finite number without a sign whose text has at most one digit after the point. -/
def Double.isPlain (d : Double) : Bool :=
  d.isFinite && !d.isNegative && isPlainNumeral (d.text Pattern.numberNames).toList

theorem isDigits_toDigits (n : Nat) : IsDigits (Nat.toDigits 10 n) :=
  ⟨Nat.toDigits_ne_nil, fun _ hc => Nat.isDigit_of_mem_toDigits (by decide) (by decide) hc⟩

/-- The part of a plain numeral after the point is one digit. -/
theorem fraction_of_isPlainNumeral {w f : List Char} (hw : IsDigits w)
    (h : isPlainNumeral (w ++ '.' :: f) = true) : ∃ t, t.isDigit = true ∧ f = [t] := by
  rw [isPlainNumeral, List.dropWhile_append_of_pos hw.2, List.dropWhile_cons_of_neg (by decide),
    Bool.and_eq_true] at h
  obtain ⟨-, h⟩ := h
  split at h
  · rename_i heq
    exact absurd heq (List.cons_ne_nil _ _)
  · rename_i t heq
    exact ⟨t, h, (List.cons.inj heq).2⟩
  · exact absurd h Bool.false_ne_true

/-- The last digit may be written apart from the others. -/
theorem ofDigitChars_last_digit (n : Nat) :
    Nat.ofDigitChars 10 (Nat.toDigits 10 (n / 10) ++ Nat.toDigits 10 (n % 10)) 0 = n := by
  have hlast : Nat.toDigits 10 (n % 10) = [(n % 10).digitChar] :=
    Nat.toDigits_of_lt_base (Nat.mod_lt _ (by decide))
  have hdigit : Nat.ofDigitChars 10 [(n % 10).digitChar] 0 = n % 10 := by
    rw [← hlast, Nat.ofDigitChars_ten_toDigits]
  rw [Nat.ofDigitChars_append, Nat.ofDigitChars_ten_toDigits,
    Nat.ofDigitChars_eq_ofDigitChars_zero, hlast, hdigit, List.length_singleton, Nat.pow_one]
  exact Nat.div_add_mod n 10

/-- The text of a decimal spells a number of the same value if it is plain. -/
theorem exists_numeral_of_chars {d : Decimal} (h : isPlainNumeral d.chars = true) :
    ∃ n, Numeral d.chars n ∧ n.value = d.value := by
  by_cases hscale : 0 ≤ d.scale
  · obtain ⟨k, hk⟩ := Int.eq_ofNat_of_zero_le hscale
    rw [Decimal.chars, if_pos hscale]
    refine ⟨_, .whole (isDigits_toDigits _), ?_⟩
    rw [Nat.ofDigitChars_ten_toDigits]
    simp only [Decimal.value, hk, Int.toNat_natCast, Nat.cast_mul, Double.tenPow_cast, zpow_zero,
      mul_one, zpow_natCast]
  · have hwhole := isDigits_toDigits (d.digits / Double.tenPow (-d.scale).toNat)
    rw [Decimal.chars, if_neg hscale] at h ⊢
    dsimp only at h ⊢
    obtain ⟨t, ht, htail⟩ := fraction_of_isPlainNumeral hwhole h
    -- One digit after the point leaves no room for zeros in front of it.
    have hlen := congrArg List.length htail
    have hpos := Nat.length_toDigits_pos (b := 10) (n := d.digits % Double.tenPow (-d.scale).toNat)
    rw [List.length_append, List.length_replicate, List.length_singleton] at hlen
    obtain hplaces : (-d.scale).toNat = 1 := by omega
    have hone : Double.tenPow 1 = 10 := rfl
    rw [hplaces, hone] at htail hwhole hpos ⊢
    rw [Nat.sub_eq_zero_of_le hpos, List.replicate_zero, List.nil_append] at htail
    refine ⟨⟨d.digits, -1⟩, ?_, ?_⟩
    · have hn := Numeral.tenths hwhole ht
      rw [← htail, ofDigitChars_last_digit] at hn
      rw [Nat.sub_eq_zero_of_le hpos, htail]
      exact htail ▸ hn
    · have hk : d.scale = -1 := by omega
      rw [Decimal.value, Decimal.value, hk]

/-- The text of each of these numbers spells it. -/
def WritesNumbers (number : Double → Bool) : Prop :=
  ∀ d, number d = true → ∃ n, Numeral (d.text Pattern.numberNames).toList n ∧ n.RoundsTo d ∧
    d.isFinite = true

/-- The shortest digits of a plain number spell it. -/
theorem writesNumbers_isPlain : WritesNumbers Double.isPlain := by
  intro d h
  simp only [Double.isPlain, Bool.and_eq_true, Bool.not_eq_true'] at h
  obtain ⟨⟨hfin, hsign⟩, hplain⟩ := h
  have hlt : d.magnitude < Double.infinity := by simpa [Double.isFinite] using hfin
  have hround {n : Decimal} (hn : n.magnitude = d.magnitude) : n.RoundsTo d :=
    ⟨hsign, hn ▸ n.isNearest_magnitude⟩
  have hnan : d.isNaN = false := by simp [Double.isNaN, hlt.le]
  have hinf : d.isInfinite = false := by simp [Double.isInfinite, hlt.ne]
  unfold Double.text at hplain ⊢
  simp only [hnan, hinf, hsign, Bool.false_eq_true, if_false] at hplain ⊢
  by_cases hzero : d.isZero = true
  · rw [if_pos hzero]
    have hmag : d.magnitude = 0 := by simpa [Double.isZero] using hzero
    exact ⟨⟨0, 0⟩, .whole (isDigits_toDigits 0), hround (by rw [hmag]; rfl), hfin⟩
  · rw [if_neg hzero, String.toList_ofList] at hplain ⊢
    obtain ⟨n, hn, hvalue⟩ := exists_numeral_of_chars hplain
    refine ⟨n, hn, hround ?_, hfin⟩
    rw [Decimal.magnitude_eq_of_value_eq hvalue, Decimal.shortest_reads_back hlt]

/-! ### Spellable patterns -/

def Pattern.isBlank : Pattern → Bool
  | .blank => true
  | _ => false

section Spellable

variable (number : Double → Bool)

mutual

/-- Can a text spell the pattern, if `number` tells which numbers one can? -/
def Pattern.isSpellable : Pattern → Bool
  | .array elements => Pattern.areSpellable elements
  | .object entries => Entry.areSpellable entries
  | .tagged name arguments => decide (IsName name) && arguments.isSpellable
  | .binder name => decide (IsName name)
  | .number d => number d
  | .constant _ | .string _ | .wildcard => true
  | .blank => false

/-- A blank may be an element, and nothing else. -/
def Pattern.areSpellable : List Pattern → Bool
  | [] => true
  | p :: ps => (p.isBlank || p.isSpellable) && Pattern.areSpellable ps

def Entry.isSpellable : Entry → Bool
  | .shorthand key => decide (IsName key)
  | .explicit key p => isWord key && key != "_" && p.isSpellable

def Entry.areSpellable : List Entry → Bool
  | [] => true
  | e :: es => e.isSpellable && Entry.areSpellable es

def Arguments.isSpellable : Arguments → Bool
  | .unspecified => true
  | .positional elements => Pattern.areSpellable elements
  | .keyed entries => Entry.areSpellable entries

end

end Spellable

/-! ### What is written -/

/-- An escaped text is the body of a string literal that stands for the text. -/
theorem quoted_escape (s : List Char) : Quoted '"' (escape s) s := by
  have h := quoted_of_body? (body?_escape s [])
  rwa [unescape_escape] at h

theorem Derives.slots_after_spaces {ps : List Pattern} {t u : List Char} (hu : Spaces u)
    (h : Derives (.slots ps) t) : Derives (.slots ps) (u ++ t) := by
  cases h with
  | noSlot hv => exact .noSlot (hu.append hv)
  | lastSlot hv hs hw =>
    rw [← List.append_assoc, ← List.append_assoc]
    exact .lastSlot (hu.append hv) hs hw
  | emptySlot hv ht =>
    rw [← List.append_assoc]
    exact .emptySlot (hu.append hv) ht
  | filledSlot hv hs hw ht =>
    rw [← List.append_assoc, ← List.append_assoc, ← List.append_assoc]
    exact .filledSlot (hu.append hv) hs hw ht

theorem Derives.entries_after_spaces {es : List Entry} {t u : List Char} (hu : Spaces u)
    (h : Derives (.entries es) t) : Derives (.entries es) (u ++ t) := by
  cases h with
  | noEntry hv => exact .noEntry (hu.append hv)
  | lastEntry hv hs hw =>
    rw [← List.append_assoc, ← List.append_assoc]
    exact .lastEntry (hu.append hv) hs hw
  | moreEntries hv hs hw ht =>
    rw [← List.append_assoc, ← List.append_assoc, ← List.append_assoc]
    exact .moreEntries (hu.append hv) hs hw ht

/-- What `write` puts in front of any text spells the phrase. -/
def Writes (ph : Phrase) (write : List Char → List Char) : Prop :=
  ∃ s, Derives ph s ∧ ∀ rest, write rest = s ++ rest

theorem spaces_blank : Spaces [' '] := List.forall_mem_singleton.2 (by decide)

/-- An element before others is written with a comma after it, be it a blank or not. -/
theorem writes_slots_cons {p q : Pattern} {ps : List Pattern}
    (hp : p = .blank ∨ Writes (.pattern p) p.write)
    (hps : Writes (.slots (q :: ps)) (Pattern.writeList (q :: ps))) :
    Writes (.slots (p :: q :: ps)) (Pattern.writeList (p :: q :: ps)) := by
  obtain ⟨t, ht, hwt⟩ := hps
  have htail := Derives.slots_after_spaces spaces_blank ht
  rcases hp with rfl | ⟨s, hs, hws⟩
  · refine ⟨_, .emptySlot spaces_nil htail, fun rest => ?_⟩
    rw [Pattern.writeList, Pattern.write, hwt]
    rfl
  · refine ⟨_, .filledSlot spaces_nil hs spaces_nil htail, fun rest => ?_⟩
    rw [Pattern.writeList, hws, hwt]
    simp

/-- The last element is written without a comma, unless it is a blank. -/
theorem writes_slots_singleton {p : Pattern} (hp : p = .blank ∨ Writes (.pattern p) p.write) :
    Writes (.slots [p]) (Pattern.writeList [p]) := by
  rcases hp with rfl | ⟨s, hs, hws⟩
  · exact ⟨_, .emptySlot spaces_nil (.noSlot spaces_nil), fun rest => rfl⟩
  · refine ⟨_, .lastSlot spaces_nil hs spaces_nil, fun rest => ?_⟩
    have hne : p ≠ .blank := by
      rintro rfl
      cases hs
    rw [Pattern.writeList, hws, List.nil_append, List.append_nil]
    exact hne

theorem writes_entries_cons {e f : Entry} {es : List Entry} (he : Writes (.entry e) e.write)
    (hes : Writes (.entries (f :: es)) (Entry.writeList (f :: es))) :
    Writes (.entries (e :: f :: es)) (Entry.writeList (e :: f :: es)) := by
  obtain ⟨t, ht, hwt⟩ := hes
  obtain ⟨s, hs, hws⟩ := he
  refine ⟨_, .moreEntries spaces_nil hs spaces_nil (ht.entries_after_spaces spaces_blank),
    fun rest => ?_⟩
  rw [Entry.writeList, hws, hwt]
  simp

theorem writes_entries_singleton {e : Entry} (he : Writes (.entry e) e.write) :
    Writes (.entries [e]) (Entry.writeList [e]) := by
  obtain ⟨s, hs, hws⟩ := he
  refine ⟨_, .lastEntry spaces_nil hs spaces_nil, fun rest => ?_⟩
  rw [Entry.writeList, hws, List.nil_append, List.append_nil]

variable {number : Double → Bool}

mutual

/-- What is written for a spellable pattern spells it. -/
theorem Pattern.writes (hn : WritesNumbers number) (p : Pattern) (h : p.isSpellable number = true) :
    Writes (.pattern p) p.write := by
  cases p with
  | array elements =>
    obtain ⟨s, hs, hw⟩ := Pattern.writes_list hn elements h
    refine ⟨_, .array hs, fun rest => ?_⟩
    rw [Pattern.write, hw]
    simp
  | object entries =>
    obtain ⟨s, hs, hw⟩ := Entry.writes_list hn entries h
    refine ⟨_, .object hs, fun rest => ?_⟩
    rw [Pattern.write, hw]
    simp
  | tagged name arguments =>
    simp only [Pattern.isSpellable, Bool.and_eq_true, decide_eq_true_eq] at h
    obtain ⟨s, hs, hw⟩ := arguments.writes hn h.2
    refine ⟨_, .tagged h.1 spaces_nil spaces_nil hs spaces_nil, fun rest => ?_⟩
    rw [Pattern.write, hw]
    simp
  | binder name => exact ⟨_, .binder (of_decide_eq_true h), fun _ => rfl⟩
  | constant c => exact ⟨_, .constant c, fun _ => rfl⟩
  | number d =>
    obtain ⟨n, hnum, hround, hfin⟩ := hn d h
    exact ⟨_, .number hnum hround hfin, fun _ => rfl⟩
  | string s =>
    have hs := Derives.string (.inr rfl) (quoted_escape s.toList)
    rw [String.ofList_toList] at hs
    refine ⟨_, hs, fun rest => ?_⟩
    rw [Pattern.write]
    simp
  | wildcard => exact ⟨_, .wildcard, fun _ => rfl⟩
  | blank => exact absurd h Bool.false_ne_true

theorem Pattern.writes_list (hn : WritesNumbers number) (ps : List Pattern)
    (h : Pattern.areSpellable number ps = true) :
    Writes (.slots ps) (Pattern.writeList ps) := by
  cases ps with
  | nil => exact ⟨[], .noSlot spaces_nil, fun _ => rfl⟩
  | cons p ps =>
    simp only [Pattern.areSpellable, Bool.and_eq_true, Bool.or_eq_true] at h
    have hp : p = .blank ∨ Writes (.pattern p) p.write := by
      rcases h.1 with hb | hp
      · left
        cases p <;> first | rfl | exact absurd hb Bool.false_ne_true
      · exact .inr (p.writes hn hp)
    cases ps with
    | nil => exact writes_slots_singleton hp
    | cons q ps => exact writes_slots_cons hp (Pattern.writes_list hn (q :: ps) h.2)

theorem Entry.writes (hn : WritesNumbers number) (e : Entry) (h : e.isSpellable number = true) :
    Writes (.entry e) e.write := by
  cases e with
  | shorthand key => exact ⟨_, .shorthand (of_decide_eq_true h), fun _ => rfl⟩
  | explicit key p =>
    simp only [Entry.isSpellable, Bool.and_eq_true, bne_iff_ne] at h
    obtain ⟨s, hs, hw⟩ := p.writes hn h.2
    refine ⟨_, .explicit h.1.1 h.1.2 spaces_nil spaces_blank hs, fun rest => ?_⟩
    rw [Entry.write, hw]
    simp

theorem Entry.writes_list (hn : WritesNumbers number) (es : List Entry)
    (h : Entry.areSpellable number es = true) :
    Writes (.entries es) (Entry.writeList es) := by
  cases es with
  | nil => exact ⟨[], .noEntry spaces_nil, fun _ => rfl⟩
  | cons e es =>
    simp only [Entry.areSpellable, Bool.and_eq_true] at h
    have he := e.writes hn h.1
    cases es with
    | nil => exact writes_entries_singleton he
    | cons f es => exact writes_entries_cons he (Entry.writes_list hn (f :: es) h.2)

theorem Arguments.writes (hn : WritesNumbers number) (as : Arguments)
    (h : as.isSpellable number = true) :
    Writes (.arguments as) as.write := by
  cases as with
  | unspecified => exact ⟨[], .unspecified, fun _ => rfl⟩
  | positional elements =>
    obtain ⟨s, hs, hw⟩ := Pattern.writes_list hn elements h
    refine ⟨_, .positional hs, fun rest => ?_⟩
    rw [Arguments.write, hw]
    simp
  | keyed entries =>
    obtain ⟨s, hs, hw⟩ := Entry.writes_list hn entries h
    refine ⟨_, .keyed hs, fun rest => ?_⟩
    rw [Arguments.write, hw]
    simp

end

/-- **A pattern that can be spelled is read back from its canonical text.** -/
theorem parse_text_of_isSpellable {p : Pattern} (h : p.isSpellable Double.isPlain = true) :
    Pattern.parse p.text = .ok p := by
  obtain ⟨s, hs, hw⟩ := Pattern.writes writesNumbers_isPlain p h
  refine parse_of_spelledBy ⟨[], s, [], ?_, spaces_nil, hs, spaces_nil⟩
  rw [Pattern.text, String.toList_ofList, hw]
  rfl

theorem parse_text_of_nested :
    Pattern.parse (Pattern.array [.blank, .tagged "Point" (.keyed [.explicit "true"
        (.number ⟨0x3FF8000000000000⟩), .shorthand "y"]), .string "a\"b", .blank]).text =
      .ok (Pattern.array [.blank, .tagged "Point" (.keyed [.explicit "true"
        (.number ⟨0x3FF8000000000000⟩), .shorthand "y"]), .string "a\"b", .blank]) :=
  parse_text_of_isSpellable (by decide +kernel)

end Destructure
