import Destructure.Proofs.Double.Grids
import Destructure.Proofs.Parsing.EntryPoints
import Destructure.Proofs.Pattern.RoundTrip

/-!
# Destructure.Proofs.Pattern.Spelled

Every pattern that a text is read as can be spelled again: `isSpellable_of_parse`.

Reading keeps blanks to slots, reserved words out of names, and signs and infinities out of numbers,
and these checks stand in several places of the parser. They are collected in `Pattern.isSpellable`,
and the canonical text of such a pattern is read back as the pattern.

Proof shape: all of this is true of any spelling, whether it is parsed or not, by induction on how
the grammar derives it (`isSpellable_of_derives`). Numbers need an argument of their own. A numeral
has at most one digit after the point, and the shortest digits of the double next to it have no more
(`isPlain_of_numeral`), so what is written of it is a numeral again.
-/

namespace Destructure

open Text

/-! ### Numbers -/

/-- Digits without a finer place than tenths are a plain numeral. -/
theorem isPlainNumeral_chars {d : Decimal} (h : -1 ≤ d.scale) : isPlainNumeral d.chars = true := by
  have htake (n : Nat) (r : List Char) : (Nat.toDigits 10 n ++ '.' :: r).takeWhile Char.isDigit =
      Nat.toDigits 10 n := by
    rw [List.takeWhile_append_of_pos (isDigits_toDigits n).2,
      List.takeWhile_cons_of_neg (by decide), List.append_nil]
  have hdrop (n : Nat) (r : List Char) : (Nat.toDigits 10 n ++ '.' :: r).dropWhile Char.isDigit =
      '.' :: r := by
    rw [List.dropWhile_append_of_pos (isDigits_toDigits n).2,
      List.dropWhile_cons_of_neg (by decide)]
  by_cases hscale : 0 ≤ d.scale
  · rw [Decimal.chars, if_pos hscale]
    have hdigits := isDigits_toDigits (d.digits * Double.tenPow d.scale.toNat)
    simp [isPlainNumeral, List.takeWhile_eq_self_iff.2 hdigits.2,
      List.dropWhile_eq_nil_iff.2 hdigits.2]
  · have hplaces : (-d.scale).toNat = 1 := by omega
    have hone : Double.tenPow 1 = 10 := rfl
    have hlast : Nat.toDigits 10 (d.digits % 10) = [(d.digits % 10).digitChar] :=
      Nat.toDigits_of_lt_base (Nat.mod_lt _ (by decide))
    have hdigit : (d.digits % 10).digitChar.isDigit = true :=
      (isDigits_toDigits (d.digits % 10)).2 _ (by rw [hlast]; exact List.mem_singleton_self _)
    rw [Decimal.chars, if_neg hscale]
    dsimp only
    rw [hplaces, hone, hlast, isPlainNumeral, htake, hdrop]
    simp [hdigit]

theorem neg_one_le_scale_of_numeral {s : List Char} {n : Decimal} (h : Numeral s n) :
    -1 ≤ n.scale := by
  cases h with
  | whole => exact (by decide : (-1 : Int) ≤ 0)
  | tenths => exact le_refl (-1)
  | scaled =>
    dsimp only
    omega

/-- A decimal with no finer place than tenths is a number of tenths. -/
theorem exists_tenths {n : Decimal} (h : -1 ≤ n.scale) :
    ∃ k, (⟨k, -1⟩ : Decimal).magnitude = n.magnitude := by
  refine ⟨n.digits * Double.tenPow (n.scale + 1).toNat, Decimal.magnitude_eq_of_value_eq ?_⟩
  have hscale : n.scale = ((n.scale + 1).toNat : Int) + -1 := by omega
  have hten : (10 : ℚ) ≠ 0 := by norm_num
  unfold Decimal.value
  dsimp only
  rw [Nat.cast_mul, Double.tenPow_cast, mul_assoc, ← zpow_natCast, ← zpow_add₀ hten, ← hscale]

/-- The double that a numeral is read as is written with at most one digit after the point. -/
theorem isPlain_of_numeral {s : List Char} {n : Decimal} {d : Double} (hs : Numeral s n)
    (hround : n.RoundsTo d) (hfin : d.isFinite = true) : d.isPlain = true := by
  obtain ⟨hsign, hnear⟩ := hround
  have hlt : d.magnitude < Double.infinity := by simpa [Double.isFinite] using hfin
  have hnan : d.isNaN = false := by simp [Double.isNaN, hlt.le]
  have hinf : d.isInfinite = false := by simp [Double.isInfinite, hlt.ne]
  have hnumeral : isPlainNumeral (d.text Pattern.numberNames).toList = true := by
    unfold Double.text
    simp only [hnan, hinf, hsign, Bool.false_eq_true, if_false]
    by_cases hzero : d.isZero = true
    · rw [if_pos hzero]
      decide
    · rw [if_neg hzero, String.toList_ofList]
      have hne : d.magnitude ≠ 0 := by simpa [Double.isZero] using hzero
      obtain ⟨k, hk⟩ := exists_tenths (neg_one_le_scale_of_numeral hs)
      rw [n.isNearest_magnitude.unique hnear] at hk
      exact isPlainNumeral_chars (Decimal.neg_one_le_scale_shortest hk hne)
  simp [Double.isPlain, hfin, hsign, hnumeral]

/-! ### Spellings -/

/-- A phrase without anything in it that no text spells, if `number` tells which numbers are. -/
def Phrase.isSpellable (number : Double → Bool) : Phrase → Bool
  | .pattern p => p.isSpellable number
  | .slots ps => Pattern.areSpellable number ps
  | .entries es => Entry.areSpellable number es
  | .entry e => e.isSpellable number
  | .arguments as => as.isSpellable number

/-- Whatever the grammar derives is spellable, if the numbers that numerals stand for are. -/
theorem isSpellable_of_derives {number : Double → Bool}
    (hnumber : ∀ (s : List Char) (n : Decimal) (d : Double), Numeral s n → n.RoundsTo d →
      d.isFinite = true → number d = true)
    {ph : Phrase} {s : List Char} (h : Derives ph s) : ph.isSpellable number = true := by
  have helement {p : Pattern} {ps : List Pattern} (hp : p.isSpellable number = true)
      (hps : Pattern.areSpellable number ps = true) :
      Pattern.areSpellable number (p :: ps) = true := by
    simp [Pattern.areSpellable, hp, hps]
  have hentry {e : Entry} {es : List Entry} (he : e.isSpellable number = true)
      (hes : Entry.areSpellable number es = true) : Entry.areSpellable number (e :: es) = true := by
    simp [Entry.areSpellable, he, hes]
  induction h with
  | array _ ih => exact ih
  | object _ ih => exact ih
  | tagged hname _ _ _ _ ih => exact Bool.and_eq_true_iff.2 ⟨decide_eq_true hname, ih⟩
  | binder hname => exact decide_eq_true hname
  | constant => rfl
  | wildcard => rfl
  | number hs hround hfin => exact hnumber _ _ _ hs hround hfin
  | string => rfl
  | noSlot => rfl
  | lastSlot _ _ _ ih => exact helement ih rfl
  | emptySlot _ _ ih => exact ih
  | filledSlot _ _ _ _ ih ihs => exact helement ih ihs
  | noEntry => rfl
  | lastEntry _ _ _ ih => exact hentry ih rfl
  | moreEntries _ _ _ _ ih ihs => exact hentry ih ihs
  | shorthand hkey => exact decide_eq_true hkey
  | explicit hkey hany _ _ _ ih =>
    exact Bool.and_eq_true_iff.2 ⟨Bool.and_eq_true_iff.2 ⟨hkey, bne_iff_ne.2 hany⟩, ih⟩
  | unspecified => rfl
  | positional _ ih => exact ih
  | keyed _ ih => exact ih

/-! ### Texts -/

/-- A finite number with a clear sign bit. -/
def Double.isUnsigned (d : Double) : Bool := d.isFinite && !d.isNegative

theorem spelledBy_of_parse {text : String} {p : Pattern} (h : Pattern.parse text = .ok p) :
    p.SpelledBy text.toList := by
  have hfinds : (parseWhole (Cursor.ofString text)).Finds p _ := ⟨h, rfl⟩
  obtain ⟨hp, hend⟩ := finds_parseWhole.1 hfinds
  obtain ⟨x, hx, hspell⟩ := spelledBy_of_parsePattern hp
  rw [hend, List.append_nil] at hx
  exact (show text.toList = x from hx) ▸ hspell

/-- The canonical text of a pattern that something spells is read back as it. -/
theorem parse_text_of_spelledBy {p : Pattern} {t : List Char} (h : p.SpelledBy t) :
    Pattern.parse p.text = .ok p := by
  obtain ⟨_, _, _, -, -, hp, -⟩ := h
  have hplain : p.isSpellable Double.isPlain = true :=
    isSpellable_of_derives (fun _ _ _ => isPlain_of_numeral) hp
  obtain ⟨s, hs, hw⟩ := Pattern.writes writesNumbers_isPlain p hplain
  refine parse_of_spelledBy ⟨[], s, [], ?_, spaces_nil, hs, spaces_nil⟩
  rw [Pattern.text, String.toList_ofList, hw]
  rfl

/-- **What is read can be spelled.** Of whatever text a pattern is read, blanks stand in slots only,
names and keys are words that may stand there, and numbers are finite and unsigned. And the
canonical text of the pattern is read back as it, by the same entry point. -/
theorem isSpellable_of_parse {text : String} {p : Pattern}
    (h : Pattern.parse text = .ok p ∨ Pattern.parseTagged text = .ok p) :
    p.isSpellable Double.isUnsigned = true ∧ Pattern.parse p.text = .ok p ∧
      (Pattern.parseTagged text = .ok p → Pattern.parseTagged p.text = .ok p) := by
  have hparse : Pattern.parse text = .ok p := h.elim id fun h => (parseTagged_eq_ok_iff.1 h).1
  have hspell := spelledBy_of_parse hparse
  have hback := parse_text_of_spelledBy hspell
  have hunsigned (s : List Char) (n : Decimal) (d : Double) (_ : Numeral s n)
      (hround : n.RoundsTo d) (hfin : d.isFinite = true) : d.isUnsigned = true := by
    rw [Double.isUnsigned, hfin, hround.1]
    rfl
  obtain ⟨_, _, _, -, -, hp, -⟩ := hspell
  refine ⟨isSpellable_of_derives hunsigned hp, hback, ?_⟩
  intro htagged
  exact parseTagged_eq_ok_iff.2 ⟨hback, (parseTagged_eq_ok_iff.1 htagged).2⟩

theorem exists_of_isOk {ε α : Type} {r : Except ε α} (h : r.isOk = true) : ∃ a, r = .ok a := by
  cases r with
  | ok a => exact ⟨a, rfl⟩
  | error e => cases h

theorem isSpellable_of_parse_of_blanks :
    (∃ p, Pattern.parse " [ , \x7btrue: 0012.0e3, y,\x7d, 'a\"b', A([x,,])] " = .ok p ∧
        p.isSpellable Double.isUnsigned = true ∧ Pattern.parse p.text = .ok p) ∧
      ∃ p, Pattern.parseTagged " A ( [x,,] ) " = .ok p ∧ Pattern.parseTagged p.text = .ok p := by
  constructor
  · obtain ⟨p, hp⟩ := exists_of_isOk (r := Pattern.parse
      " [ , \x7btrue: 0012.0e3, y,\x7d, 'a\"b', A([x,,])] ") (by decide +kernel)
    obtain ⟨hspellable, hback, -⟩ := isSpellable_of_parse (.inl hp)
    exact ⟨p, hp, hspellable, hback⟩
  · obtain ⟨p, hp⟩ := exists_of_isOk (r := Pattern.parseTagged " A ( [x,,] ) ") (by decide +kernel)
    exact ⟨p, hp, (isSpellable_of_parse (.inr hp)).2.2 hp⟩

end Destructure
