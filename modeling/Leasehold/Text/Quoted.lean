import Leasehold.Text.Visible

/-!
# Quoted texts

A text is shown between quotes so that it can be told from what stands around it. The quote and the
backslash have a backslash in front, tabs and ends of lines are spelled as letters, and characters
that cannot be seen by themselves are spelled as their numbers.

* `Leasehold.Text.quoted` – a text between quotes;
* `Leasehold.Text.quotedList` – some texts between brackets.
-/

namespace Leasehold.Text

/-- A character by its number, in base sixteen. -/
def byNumber (c : Char) : List Char :=
  ['\\', 'u', '\x7b'] ++ Nat.toDigits 16 c.toNat ++ ['\x7d']

/-- A character as it stands between quotes. -/
def spelled (c : Char) : List Char :=
  if c.toNat = 0 then ['\\', '0']
  else if c = '\t' then ['\\', 't']
  else if c = '\r' then ['\\', 'r']
  else if c = '\n' then ['\\', 'n']
  else if c = '\\' then ['\\', '\\']
  else if c = '"' then ['\\', '"']
  else if isVisible c then [c]
  else byNumber c

/-- **A text between quotes.** -/
def quoted (s : String) : String := "\"" ++ String.ofList (s.toList.flatMap spelled) ++ "\""

/-- **Some texts between brackets.** -/
def quotedList (ss : List String) : String := "[" ++ ", ".intercalate (ss.map quoted) ++ "]"

end Leasehold.Text
