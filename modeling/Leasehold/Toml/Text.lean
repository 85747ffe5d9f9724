import Leasehold.Text.Escape
import Leasehold.Toml.Value

/-!
# Writing TOML

A document is written section by section, one assignment a line under the header of its section.
Numbers are written in base ten; a list with at most one item stays on its line, a longer one gets
a line for each.

* `Leasehold.Toml.stringText` – a string, in the simplest kind of quotes that can hold it;
* `Leasehold.Toml.listText` – a list of strings;
* `Leasehold.Toml.Plain`, `Leasehold.Toml.Section` – what can be written, and in which parts;
* `Leasehold.Toml.documentText` – the text of a document;
* `Leasehold.Toml.documentTable` – the table that this text stands for.

A string goes between double quotes without escapes, else between single quotes, else into a
block of either kind, and only when none of these can hold it is it escaped. A tab between double
quotes is always escaped, although it need not be.
-/

namespace Leasehold.Toml

/-! ### What a string is made of -/

/-- Control characters other than the tab and the line feed: they have to be escaped. -/
def isEscapeOnly (c : Char) : Bool :=
  (c.toNat < 32 && c ≠ '\t' && c ≠ '\n') || c.toNat = 127

/-- The longest row of a character. -/
def longestRow (q : Char) (s : List Char) : Nat :=
  (s.foldl (fun (best, row) c => if c = q then (max best (row + 1), row + 1) else (best, 0))
    (0, 0)).1

/-- **The kinds of quotes** a string can be written in. -/
inductive Style where
  /-- Double quotes, with escapes. -/
  | basic
  /-- Single quotes. -/
  | plain
  /-- A block between three double quotes, with escapes. -/
  | basicBlock
  /-- A block between three single quotes. -/
  | plainBlock
deriving DecidableEq

/-- **The kind of quotes for a string**: the first that holds it without escapes, and otherwise
double quotes, as a block when it has several lines. -/
def Style.of (s : List Char) : Style :=
  let mustEscape := s.any isEscapeOnly
  let hasNewline := s.contains '\n'
  let hasBackslash := s.contains '\\'
  let doubles := longestRow '"' s
  let singles := longestRow '\'' s
  if !mustEscape && !hasNewline && !hasBackslash && doubles = 0 then .basic
  else if !mustEscape && !hasNewline && singles = 0 then .plain
  else if !mustEscape && !hasBackslash && doubles ≤ 2 then .basicBlock
  else if !mustEscape && singles ≤ 2 then .plainBlock
  else if hasNewline then .basicBlock
  else .basic

/-! ### Escapes -/

/-- **What is escaped between double quotes**: besides the quote and the backslash the control
characters. -/
def escapes : Text.Escapes where
  ten := 'A'
  mustEscape := Text.isControl
  ten_cases := .inr rfl
  lt_of_mustEscape h := by
    simp only [Text.isControl, Bool.or_eq_true, decide_eq_true_eq] at h
    omega

/-- The characters of a block between double quotes: line feeds stay, and of three quotes in a
row the third is escaped. The first argument counts the quotes right before. -/
def escapeBlock : Nat → List Char → List Char
  | _, [] => []
  | row, c :: cs =>
    if c = '"' then
      if row = 2 then '\\' :: '"' :: escapeBlock 0 cs else '"' :: escapeBlock (row + 1) cs
    else if c = '\n' then '\n' :: escapeBlock 0 cs
    else escapes.write c ++ escapeBlock 0 cs

/-- The characters of a string in some kind of quotes. -/
def Style.render (style : Style) (s : List Char) : List Char :=
  let first := if s.contains '\n' then ['\n'] else []
  match style with
  | .basic => '"' :: s.flatMap escapes.write ++ ['"']
  | .plain => '\'' :: s ++ ['\'']
  | .basicBlock => ['"', '"', '"'] ++ first ++ escapeBlock 0 s ++ ['"', '"', '"']
  | .plainBlock => ['\'', '\'', '\''] ++ first ++ s ++ ['\'', '\'', '\'']

/-- **The text of a string.** -/
def stringText (s : String) : String := String.ofList ((Style.of s.toList).render s.toList)

/-! ### Values -/

/-- **The text of a list of strings**: one item stays on the line, more get a line each. -/
def listText : List String → String
  | [] => "[]"
  | [s] => "[" ++ stringText s ++ "]"
  | ss => "[\n" ++ String.join (ss.map fun s => "    " ++ stringText s ++ ",\n") ++ "]"

/-- **A value of a section.** -/
inductive Plain where
  /-- A natural number. -/
  | natural (n : Nat)
  /-- A string. -/
  | text (s : String)
  /-- A list of strings. -/
  | texts (ss : List String)
deriving DecidableEq

namespace Plain

/-- The text of a value. -/
def toText : Plain → String
  | natural n => toString n
  | text s => stringText s
  | texts ss => listText ss

/-- The value that the text is read as. -/
def value : Plain → Value
  | natural n => .integer n
  | text s => .text s
  | texts ss => .array (ss.map .text)

end Plain

/-! ### Sections -/

/-- **A section**: named values under a name. -/
structure Section where
  /-- The name of the section. -/
  name : String
  /-- Its values, each under its key. -/
  entries : List (String × Plain)
deriving DecidableEq

namespace Section

/-- The text of a section: its header, and one value a line. -/
def toText (s : Section) : String :=
  "[" ++ s.name ++ "]\n" ++
    String.join (s.entries.map fun (key, v) => key ++ " = " ++ v.toText ++ "\n")

/-- The member of the document that a section is read as. -/
def member (s : Section) : String × Value :=
  (s.name, .table .defined (s.entries.map fun (key, v) => (key, v.value)))

end Section

/-- **The text of a document**: one section after another, with a blank line between two. -/
def documentText (sections : List Section) : String :=
  "\n".intercalate (sections.map Section.toText)

/-- **The table that the text of a document stands for.** -/
def documentTable (sections : List Section) : Members := sections.map Section.member

end Leasehold.Toml
