import Destructure.Proofs.Parsing.Delimiters
import Mathlib.Data.List.TakeWhile

/-!
# Destructure.Proofs.Parsing.Tokens

Words, numbers and strings: what their parsers find is what the grammar says, and the other way
round as long as the token cannot go on in what follows.

For each kind the parser is first said to find something in terms of the text ahead
(`finds_parseWord`, `finds_parseNumber`, `finds_parseString`), and then the function that it uses on
that text is compared with the grammar: `number?_eq_some`, `quoted_of_body?`, `body?_of_quoted`.
-/

namespace Destructure

open Text

variable {c : Cursor}

/-! ### Words -/

/-- A word is the longest run of characters of words, if it starts as a word does. -/
theorem finds_parseWord {w : String} {e : Cursor} :
    (parseWord c).Finds w e ↔
      (∃ x ∈ c.current, isWordStart x = true) ∧
        String.ofList (c.ahead.takeWhile isWordPart) = w ∧ c.skipWhile isWordPart = e := by
  unfold parseWord
  cases h : c.current with
  | none => simp
  | some x =>
    by_cases hx : isWordStart x = true <;> simp [hx]

/-- What is read as a word is one. -/
theorem word_of_parseWord {w : String} {e : Cursor} (h : (parseWord c).Finds w e) :
    isWord w = true ∧ c.ahead = w.toList ++ e.ahead := by
  obtain ⟨⟨x, hx, hstart⟩, rfl, rfl⟩ := finds_parseWord.1 h
  obtain ⟨rest, hr⟩ := Cursor.current_eq_some.1 hx
  constructor
  · simp [isWord, hr, isWordPart_of_isWordStart hstart, hstart]
  · simp

/-- A run that cannot go on in `rest` ends before it. -/
theorem takeWhile_of_breaks {p : Char → Bool} (hp : ∀ x, p x = true → isNumberPart x = true)
    {s rest : List Char} (hs : ∀ x ∈ s, p x = true) (hr : Breaks rest) :
    (s ++ rest).takeWhile p = s ∧ (s ++ rest).dropWhile p = rest := by
  rw [List.takeWhile_append_of_pos hs, List.dropWhile_append_of_pos hs]
  cases rest with
  | nil => simp
  | cons x r =>
    have hx : ¬ p x = true := fun h => absurd (hp x h) (by simp [hr x rfl])
    simp [hx]

theorem isWord_cases {w : String} (h : isWord w = true) :
    ∃ x r, w.toList = x :: r ∧ isWordStart x = true ∧ ∀ y ∈ w.toList, isWordPart y = true := by
  unfold isWord at h
  split at h
  · simp at h
  · rename_i x r hr
    simp only [Bool.and_eq_true, List.all_eq_true] at h
    refine ⟨x, r, hr, h.1, fun y hy => ?_⟩
    rw [hr] at hy
    rcases List.mem_cons.1 hy with rfl | hy
    · exact isWordPart_of_isWordStart h.1
    · exact h.2 y hy

/-- A word that cannot go on in what follows is read. -/
theorem parseWord_of_isWord {w : String} {rest : List Char} (hw : isWord w = true)
    (hc : c.ahead = w.toList ++ rest) (hr : Breaks rest) :
    ∃ e, (parseWord c).Finds w e ∧ e.ahead = rest := by
  obtain ⟨x, r, hx, hstart, hall⟩ := isWord_cases hw
  obtain ⟨htake, hdrop⟩ := takeWhile_of_breaks (fun _ => isNumberPart_of_isWordPart) hall hr
  refine ⟨c.skipWhile isWordPart, finds_parseWord.2 ⟨⟨x, ?_, hstart⟩, ?_, rfl⟩, ?_⟩
  · exact Cursor.current_eq_some.2 ⟨r ++ rest, by rw [hc, hx]; rfl⟩
  · rw [hc, htake, String.ofList_toList]
  · rw [Cursor.ahead_skipWhile, hc, hdrop]

/-! ### Numbers -/

/-- A number is the longest run of characters that could be one, if it is one. -/
theorem finds_parseNumber {p : Pattern} {e : Cursor} :
    (parseNumber c).Finds p e ↔
      ∃ d, number? (c.ahead.takeWhile isNumberPart) = some d ∧ .number d = p ∧
        c.skipWhile isNumberPart = e := by
  unfold parseNumber
  dsimp only
  cases h : number? (c.ahead.takeWhile isNumberPart) with
  | none => simp
  | some d => simp

/-- The digits, the point and the exponent of a run are read as the grammar of numerals says. -/
theorem decimal?_eq_some {run : List Char} {n : Decimal} :
    decimal? run = some n ↔ Numeral run n := by
  constructor
  · intro h
    unfold decimal? at h
    dsimp only at h
    split at h
    · simp at h
    · rename_i hne
      have hrun := List.takeWhile_append_dropWhile (p := Char.isDigit) (l := run)
      have hdigits : IsDigits (run.takeWhile Char.isDigit) :=
        ⟨by simpa using hne, List.all_eq_true.1 List.all_takeWhile⟩
      generalize run.takeWhile Char.isDigit = w at *
      split at h
      · rename_i hd
        rw [hd, List.append_nil] at hrun
        cases h
        exact hrun ▸ .whole hdigits
      · rename_i t hd
        split at h
        · rename_i ht
          cases h
          rw [← hrun, hd]
          exact .tenths hdigits ht
        · simp at h
      · rename_i t e hd
        split at h
        · rename_i ht
          cases h
          rw [← hrun, hd]
          exact .scaled hdigits ht.1 ⟨ht.2.1, by simpa using ht.2.2⟩
        · simp at h
      · simp at h
  · intro h
    have htake {w r : List Char} (hw : IsDigits w) :
        (w ++ '.' :: r).takeWhile Char.isDigit = w ∧
          (w ++ '.' :: r).dropWhile Char.isDigit = '.' :: r := by
      rw [List.takeWhile_append_of_pos hw.2, List.dropWhile_append_of_pos hw.2]
      simp
    cases h with
    | whole hw =>
      have htake : run.takeWhile Char.isDigit = run := List.takeWhile_eq_self_iff.2 hw.2
      have hdrop : run.dropWhile Char.isDigit = [] := List.dropWhile_eq_nil_iff.2 hw.2
      simp [decimal?, htake, hdrop, hw.1]
    | tenths hw ht => simp [decimal?, htake hw, hw.1, ht]
    | scaled hw ht he =>
      have hall := List.all_eq_true.2 he.2
      simp [decimal?, htake hw, hw.1, ht, he.1, hall]

/-- The double that is computed from a decimal is the one that is nearest to it. -/
theorem Decimal.roundsTo_iff {n : Decimal} {d : Double} :
    n.RoundsTo d ↔ Double.ofDecimal n.digits n.scale = d := by
  have hlt : n.magnitude < Double.signWeight :=
    Nat.lt_of_le_of_lt (Double.magnitudeOfDecimal_le _ _) (by decide)
  constructor
  · intro h
    obtain ⟨hsign, hnear⟩ := h
    have hmag : n.magnitude = d.magnitude := n.isNearest_magnitude.unique hnear
    rw [← Double.ofMagnitude_magnitude d, hsign, ← hmag]
    rfl
  · rintro rfl
    refine ⟨Double.isNegative_ofMagnitude false hlt, ?_⟩
    have hmag : (Double.ofDecimal n.digits n.scale).magnitude = n.magnitude :=
      Double.magnitude_ofMagnitude false hlt
    rw [hmag]
    exact n.isNearest_magnitude

/-- A run is a number if it is a numeral that is not out of range. -/
theorem number?_eq_some {run : List Char} {d : Double} :
    number? run = some d ↔ ∃ n, Numeral run n ∧ n.RoundsTo d ∧ d.isFinite = true := by
  simp only [number?, Option.bind_eq_some_iff, decimal?_eq_some, Decimal.roundsTo_iff,
    Option.ite_none_right_eq_some, Option.some.injEq]
  constructor
  · intro h
    obtain ⟨n, hn, hfin, rfl⟩ := h
    exact ⟨n, hn, rfl, hfin⟩
  · intro h
    obtain ⟨n, hn, rfl, hfin⟩ := h
    exact ⟨n, hn, hfin, rfl⟩

/-- What is read as a number spells it. -/
theorem number_of_parseNumber {p : Pattern} {e : Cursor} (h : (parseNumber c).Finds p e) :
    ∃ s, c.ahead = s ++ e.ahead ∧ Derives (.pattern p) s := by
  obtain ⟨d, hd, rfl, rfl⟩ := finds_parseNumber.1 h
  obtain ⟨n, hn, hround, hfin⟩ := number?_eq_some.1 hd
  exact ⟨_, List.takeWhile_append_dropWhile.symm, .number hn hround hfin⟩

theorem isNumberPart_of_numeral {s : List Char} {n : Decimal} (h : Numeral s n) :
    ∀ x ∈ s, isNumberPart x = true := by
  have hdigits {w : List Char} (hw : IsDigits w) {x : Char} (hx : x ∈ w) :
      isNumberPart x = true := isNumberPart_of_isDigit (hw.2 x hx)
  cases h with
  | whole hw => exact fun _ => hdigits hw
  | tenths hw ht =>
    intro x hx
    simp only [List.mem_append, List.mem_cons, List.not_mem_nil, or_false] at hx
    rcases hx with hx | rfl | rfl
    · exact hdigits hw hx
    · decide
    · exact isNumberPart_of_isDigit ht
  | scaled hw ht he =>
    intro x hx
    simp only [List.mem_append, List.mem_cons] at hx
    rcases hx with hx | rfl | rfl | rfl | hx
    · exact hdigits hw hx
    · decide
    · exact isNumberPart_of_isDigit ht
    · decide
    · exact hdigits he hx

theorem exists_digit_of_numeral {s : List Char} {n : Decimal} (h : Numeral s n) :
    ∃ x r, s = x :: r ∧ x.isDigit = true := by
  have hcons {w : List Char} (hw : IsDigits w) (r : List Char) :
      ∃ x r', w ++ r = x :: r' ∧ x.isDigit = true := by
    obtain ⟨x, v, rfl⟩ := List.exists_cons_of_ne_nil hw.1
    exact ⟨x, v ++ r, rfl, hw.2 x List.mem_cons_self⟩
  cases h with
  | whole hw => simpa using hcons hw []
  | tenths hw => exact hcons hw _
  | scaled hw => exact hcons hw _

/-- A numeral that cannot go on in what follows is read. -/
theorem parseNumber_of_numeral {n : Decimal} {v : Double} {s rest : List Char} (hs : Numeral s n)
    (hn : n.RoundsTo v) (hv : v.isFinite = true) (hc : c.ahead = s ++ rest) (hr : Breaks rest) :
    ∃ e, (parseNumber c).Finds (.number v) e ∧ e.ahead = rest := by
  obtain ⟨htake, hdrop⟩ := takeWhile_of_breaks (fun _ => id) (isNumberPart_of_numeral hs) hr
  refine ⟨c.skipWhile isNumberPart, finds_parseNumber.2 ⟨v, ?_, rfl, rfl⟩, ?_⟩
  · rw [hc, htake, number?_eq_some]
    exact ⟨n, hs, hn, hv⟩
  · rw [Cursor.ahead_skipWhile, hc, hdrop]

/-! ### Strings -/

theorem finds_parseString {quote : Char} {p : Pattern} {e : Cursor} :
    (parseString quote c).Finds p e ↔
      c ≤ e ∧ ∃ body, body? quote c.advance.ahead = some (body, e.ahead) ∧
        .string (String.ofList (unescape body)) = p := by
  constructor
  · intro h
    refine ⟨h.le, ?_⟩
    unfold parseString at h
    dsimp only at h
    split at h
    · rename_i body rest hb
      obtain ⟨hp, rfl⟩ := Step.finds_done _ |>.1 h
      exact ⟨body, hb, hp⟩
    · exact absurd h (Step.not_finds_fail _)
  · intro h
    obtain ⟨hle, body, hb, hp⟩ := h
    unfold parseString
    dsimp only
    split
    · rename_i body' rest hb'
      rw [hb] at hb'
      obtain ⟨rfl, rfl⟩ := Prod.mk.inj (Option.some.inj hb')
      exact (Step.finds_done _).2 ⟨hp, Cursor.eq_of_ahead_eq
        (c.le_trans c.le_advance (Cursor.le_past _)) hle (Cursor.ahead_past _)⟩
    · simp_all

/-- Escapes are resolved as the grammar says. -/
theorem escape_iff {e c : Char} : Escape e c ↔ resolveEscape e = c := by
  constructor
  · intro h
    cases h with
    | other h =>
      simp only [List.mem_cons, List.not_mem_nil, or_false, not_or] at h
      simp [resolveEscape, h]
    | _ => rfl
  · rintro rfl
    unfold resolveEscape
    by_cases h : e ∈ ['n', 't', 'r', '0']
    · simp only [List.mem_cons, List.not_mem_nil, or_false] at h
      rcases h with rfl | rfl | rfl | rfl
      · exact .newline
      · exact .tab
      · exact .return
      · exact .null
    · have h' := h
      simp only [List.mem_cons, List.not_mem_nil, or_false, not_or] at h'
      simp only [h', if_false]
      exact .other h

/-- The body of a string literal, up to the quote that closes it, stands for the unescaped text. -/
theorem quoted_of_body? {quote : Char} {s body rest : List Char}
    (h : body? quote s = some (body, rest)) : Quoted quote body (unescape body) := by
  fun_induction body? quote s generalizing body rest with
  | case1 => simp at h
  | case2 e s ih =>
    obtain ⟨r, hr, he⟩ := Option.map_eq_some_iff.1 h
    cases he
    exact .escaped (escape_iff.2 rfl) (ih hr)
  | case3 =>
    cases h
    exact .nil
  | case4 c s hlast hne ih =>
    obtain ⟨r, hr, he⟩ := Option.map_eq_some_iff.1 h
    cases he
    -- A backslash that nothing follows is no part of a literal.
    have hc : c ≠ '\\' := by
      rintro rfl
      cases s with
      | nil => simp [body?] at hr
      | cons e s => exact hlast e s rfl rfl
    have hunescape : unescape (c :: r.1) = c :: unescape r.1 := by simp [unescape, hc]
    rw [hunescape]
    exact .plain hne hc (ih hr)

/-- The body of a string literal is found, and no quote in it is taken for the last one. -/
theorem body?_of_quoted {quote : Char} {s v : List Char} (rest : List Char) (hq : quote ≠ '\\')
    (h : Quoted quote s v) :
    body? quote (s ++ quote :: rest) = some (s, rest) ∧ unescape s = v := by
  induction h with
  | nil => simp [body?, unescape, hq]
  | plain hc hb _ ih => simp [body?, unescape, hc, hb, ih]
  | escaped he _ ih => simp [body?, unescape, ih, escape_iff.1 he]

/-- What is read as a string spells it. -/
theorem string_of_parseString {quote : Char} {p : Pattern} {e : Cursor}
    (hquote : quote = '\'' ∨ quote = '"') (hc : c.current = some quote)
    (h : (parseString quote c).Finds p e) :
    ∃ s, c.ahead = s ++ e.ahead ∧ Derives (.pattern p) s := by
  obtain ⟨-, body, hb, rfl⟩ := finds_parseString.1 h
  refine ⟨quote :: (body ++ [quote]), ?_, .string hquote (quoted_of_body? hb)⟩
  rw [Cursor.ahead_of_current hc, eq_of_body? hb]
  simp

/-- A string literal is read whatever follows it. -/
theorem parseString_of_quoted {quote : Char} {s v rest : List Char} (hquote : quote ≠ '\\')
    (hs : Quoted quote s v) (hc : c.ahead = quote :: (s ++ quote :: rest)) :
    ∃ e, (parseString quote c).Finds (.string (String.ofList v)) e ∧ e.ahead = rest := by
  obtain ⟨hb, hv⟩ := body?_of_quoted rest hquote hs
  have hadv : c.advance.ahead = (s ++ [quote]) ++ rest := by rw [Cursor.ahead_advance, hc]; simp
  refine ⟨c.advance.past _ rest hadv, finds_parseString.2 ⟨?_, s, ?_, by rw [hv]⟩, rfl⟩
  · exact c.le_trans c.le_advance (Cursor.le_past hadv)
  · rw [Cursor.ahead_past, hadv, List.append_assoc]
    exact hb

end Destructure
