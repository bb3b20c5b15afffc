/-!
# Destructure.Text.Quoted

String literals of the pattern language: a text between two equal quotes, where a backslash takes
the character after it out of its usual role.

* `escape` and `unescape` are the two directions between a text and the body of its literal.
* `body?` finds where a literal ends: the first quote that no backslash precedes.

Main statements: `unescape_escape`, and `body?_escape`, by which the body of a written literal is
found again. Reading knows more spellings than writing uses: any character may stand after a
backslash, and either quote may be chosen.
-/

namespace Destructure.Text

/-- The character that `\c` stands for: a control character for four letters, else `c` itself. -/
def resolveEscape (c : Char) : Char :=
  if c = 'n' then '\n'
  else if c = 't' then '\t'
  else if c = 'r' then '\r'
  else if c = '0' then '\x00'
  else c

/-- The text that the body of a literal stands for. -/
def unescape : List Char → List Char
  | [] => []
  | '\\' :: e :: s => resolveEscape e :: unescape s
  | c :: s => c :: unescape s

/-- A character as it is written between double quotes. -/
def escapeChar (c : Char) : List Char :=
  if c = '"' then ['\\', '"']
  else if c = '\\' then ['\\', '\\']
  else if c = '\n' then ['\\', 'n']
  else if c = '\t' then ['\\', 't']
  else if c = '\r' then ['\\', 'r']
  else if c = '\x00' then ['\\', '0']
  else [c]

/-- The body of a literal in double quotes that stands for the text. -/
def escape : List Char → List Char
  | [] => []
  | c :: s => escapeChar c ++ escape s

/-- The body of a literal whose opening quote has been passed, and what follows its closing quote.
There is none if the text ends first. -/
def body? (quote : Char) : List Char → Option (List Char × List Char)
  | [] => none
  -- Whatever a backslash precedes cannot end the literal, not even a quote.
  | '\\' :: e :: s => (body? quote s).map fun r => ('\\' :: e :: r.1, r.2)
  | c :: s => if c = quote then some ([], s) else (body? quote s).map fun r => (c :: r.1, r.2)

theorem unescape_escape (s : List Char) : unescape (escape s) = s := by
  induction s with
  | nil => rfl
  | cons c s ih =>
    by_cases h : c ∈ ['"', '\\', '\n', '\t', '\r', '\x00']
    · simp only [List.mem_cons, List.not_mem_nil, or_false] at h
      rcases h with rfl | rfl | rfl | rfl | rfl | rfl <;>
        simp [escape, escapeChar, unescape, resolveEscape, ih]
    · simp only [List.mem_cons, List.not_mem_nil, or_false, not_or] at h
      simp [escape, escapeChar, unescape, h, ih]

theorem body?_escape (s rest : List Char) :
    body? '"' (escape s ++ '"' :: rest) = some (escape s, rest) := by
  induction s with
  | nil => simp [escape, body?]
  | cons c s ih =>
    by_cases h : c ∈ ['"', '\\', '\n', '\t', '\r', '\x00']
    · simp only [List.mem_cons, List.not_mem_nil, or_false] at h
      rcases h with rfl | rfl | rfl | rfl | rfl | rfl <;> simp [escape, escapeChar, body?, ih]
    · simp only [List.mem_cons, List.not_mem_nil, or_false, not_or] at h
      simp [escape, escapeChar, body?, h, ih]

/-- A literal is its body, its closing quote and what follows. -/
theorem eq_of_body? {quote : Char} {s b rest : List Char} (h : body? quote s = some (b, rest)) :
    s = b ++ quote :: rest := by
  fun_induction body? quote s generalizing b rest with
  | case1 => simp at h
  | case2 e s ih =>
    obtain ⟨r, hr, he⟩ := Option.map_eq_some_iff.1 h
    cases he
    simp [ih hr]
  | case3 => simp_all
  | case4 c s _ _ ih =>
    obtain ⟨r, hr, he⟩ := Option.map_eq_some_iff.1 h
    cases he
    simp [ih hr]

end Destructure.Text
