import Destructure.Span
import Destructure.Text.Bytes

/-!
# Destructure.Diagnostic.Underline

Where a span lies on the page: its line, and the columns to underline there.

Every text and every span have an underline. A start past the end or inside a character moves back
to the nearest boundary. The underline stops at the end of its line, and it is one column wide where
there is nothing to cover: for an empty span, for reversed bounds, and for a stop inside a
character.
-/

namespace Destructure

open Text

/-- Columns of a line, counted in characters. -/
structure Underline where
  line : List Char
  column : Nat
  width : Nat
  deriving DecidableEq, Repr

namespace Underline

/-- The underline of a span of `text`. -/
def locate (text : List Char) (span : Span) : Underline :=
  let parts := splitAtByte span.start.toNat text
  let lead := (parts.1.reverse.takeWhile (· != '\n')).reverse
  let tail := parts.2.takeWhile (· != '\n')
  -- Reversed bounds give nothing to cover, since subtraction stops at zero.
  let size := min (span.stop.toNat - byteLength parts.1) (byteLength tail)
  let covered := ((cutAtByte? size tail).map (·.1.length)).getD 0
  ⟨lead ++ tail, lead.length, max 1 covered⟩

theorem width_pos (text : List Char) (span : Span) : 1 ≤ (locate text span).width :=
  Nat.le_max_left _ _

end Underline

end Destructure
