import Leasehold.Text.Digits

/-!
# Escapes

Between double quotes a quote, a backslash and the control characters cannot stand for themselves.
They are escaped with a backslash: some by a letter, the others by their number in base sixteen.

* `Leasehold.Text.shortEscape?`, `Leasehold.Text.unescape?` – the escapes of one letter, written
  and read;
* `Leasehold.Text.Escapes` – what a language escapes, and in which case it writes its digits;
* `Leasehold.Text.Escapes.write` – a character between quotes.
-/

namespace Leasehold.Text

/-- The control characters of seven bits. -/
def isControl (c : Char) : Bool := c.toNat < 32 || c.toNat = 127

/-! ### Escapes of one letter -/

/-- What is written after the backslash for a character that has an escape of one letter. -/
def shortEscape? (c : Char) : Option Char :=
  if c = '"' || c = '\\' then some c
  else if c = '\n' then some 'n'
  else if c = '\r' then some 'r'
  else if c = '\t' then some 't'
  else if c.toNat = 8 then some 'b'
  else if c.toNat = 12 then some 'f'
  else none

/-- The character of an escape of one letter. -/
def unescape? (c : Char) : Option Char :=
  if c = '"' || c = '\\' then some c
  else if c = 'b' then some (Char.ofNat 8)
  else if c = 'f' then some (Char.ofNat 12)
  else if c = 'n' then some '\n'
  else if c = 'r' then some '\r'
  else if c = 't' then some '\t'
  else none

/-! ### What a language escapes -/

/-- **The escapes of a language.** -/
structure Escapes where
  /-- The letter that stands for ten. -/
  ten : Char
  /-- The characters that cannot stand for themselves, besides the quote and the backslash. -/
  mustEscape : Char → Bool
  /-- Both cases of the letter are read. -/
  ten_cases : ten = 'a' ∨ ten = 'A'
  /-- Two digits are enough for all that has to be escaped. -/
  lt_of_mustEscape : ∀ {c : Char}, mustEscape c = true → c.toNat < 128

/-- **A character between quotes**, escaped where it has to be. -/
def Escapes.write (e : Escapes) (c : Char) : List Char :=
  match shortEscape? c with
  | some d => ['\\', d]
  | none =>
    if e.mustEscape c then
      ['\\', 'u', '0', '0', hexDigit e.ten (c.toNat / 16), hexDigit e.ten (c.toNat % 16)]
    else [c]

end Leasehold.Text
