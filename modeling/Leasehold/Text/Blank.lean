/-!
# Blank characters

The characters that Unicode lists under the property `White_Space`. Trimming removes them from
the ends of a text.

* `Leasehold.Text.isBlank` – the characters of the property;
* `Leasehold.Text.dropBlanks`, `Leasehold.Text.trim` – a text without blanks at its start, or at
  both ends.
-/

namespace Leasehold.Text

/-- **A blank character**: one with the property `White_Space`. -/
def isBlank (c : Char) : Bool :=
  let n := c.toNat
  (9 ≤ n && n ≤ 13) || n = 0x20 || n = 0x85 || n = 0xA0 || n = 0x1680 ||
    (0x2000 ≤ n && n ≤ 0x200A) || n = 0x2028 || n = 0x2029 || n = 0x202F || n = 0x205F || n = 0x3000

/-- A text without the blanks at its start. -/
def dropBlanks (s : List Char) : List Char := s.dropWhile isBlank

/-- A text without the blanks at its two ends. -/
def trim (s : List Char) : List Char := (dropBlanks (dropBlanks s).reverse).reverse

/-- A text of blanks only, or of nothing. -/
def isAllBlank (s : String) : Bool := s.toList.all isBlank

end Leasehold.Text
