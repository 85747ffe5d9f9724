import Leasehold.Text.Escape
import Leasehold.Text.Lexer

/-!
# The lexemes of a TOML text

A TOML text is cut into marks, bare words, strings, gaps and ends of lines; comments are left
out. A state machine reads it character by character; its state says which lexeme is open.

* `Leasehold.Toml.Lexeme` – the lexemes;
* `Leasehold.Toml.LexState`, `Leasehold.Toml.lexer` – the machine;
* `Leasehold.Toml.Lexeme.ofText?` – the lexemes of a text, absent when it cannot be cut.

A string of several lines ends at three quotes; one or two more right after them still belong to
it. A carriage return counts only together with the line feed after it.
-/

namespace Leasehold.Toml

open Text (Lexer hexValue? isControl unescape?)

/-- **A lexeme** of a TOML text. -/
inductive Lexeme where
  /-- One of the marks of the language. -/
  | mark (c : Char)
  /-- A row of characters that are neither blank nor marks. -/
  | bare (word : List Char)
  /-- A string, and whether it may have several lines. -/
  | text (content : String) (isBlock : Bool)
  /-- Blanks, and whether it is a single space. -/
  | gap (isSingleSpace : Bool)
  /-- The end of a line. -/
  | newline
deriving DecidableEq

/-! ### The machine -/

/-- The two kinds of strings. -/
inductive Quote where
  /-- Between double quotes, with escapes. -/
  | basic
  /-- Between single quotes, all characters as they are. -/
  | plain
deriving DecidableEq

/-- The character of a quote. -/
def Quote.char : Quote → Char
  | .basic => '"'
  | .plain => '\''

/-- **The state of the machine**: which lexeme is open, and what of it was read, the last
character first. -/
inductive LexState where
  /-- No lexeme is open. -/
  | between
  /-- A bare word. -/
  | bare (read : List Char)
  /-- Blanks. -/
  | gap (read : List Char)
  /-- A comment. -/
  | comment
  /-- A carriage return between lexemes. -/
  | lineReturn
  /-- The first quote of a string. -/
  | opened (q : Quote)
  /-- Two quotes: a string without characters, or the start of one of several lines. -/
  | openedTwice (q : Quote)
  /-- A string of one line. -/
  | line (q : Quote) (read : List Char)
  /-- A string of several lines, with the quotes just read; `fresh` at its very start. -/
  | block (q : Quote) (read : List Char) (quotes : Nat) (fresh : Bool)
  /-- A string of several lines, after a carriage return. -/
  | blockReturn (q : Quote) (read : List Char) (fresh : Bool)
  /-- After a backslash. -/
  | escape (isBlock : Bool) (read : List Char)
  /-- Within a character given by its number: how many digits are missing, and the number so
  far. -/
  | number (isBlock : Bool) (read : List Char) (missing : Nat) (value : Nat)
  /-- After a backslash and blanks that have to end their line. -/
  | fold (read : List Char)
  /-- The same, after a carriage return. -/
  | foldReturn (read : List Char)
  /-- After a backslash and the end of its line: blanks and ends of lines do not count. -/
  | folded (read : List Char)
deriving DecidableEq

/-- The marks. -/
def isMark (c : Char) : Bool :=
  c = '.' || c = '=' || c = ',' || c = '[' || c = ']' || c = '\x7b' || c = '\x7d'

/-- The character of an escape of one letter. -/
def escaped? (c : Char) : Option Char := if c = 'e' then some (Char.ofNat 27) else unescape? c

/-- How many digits the number of a character has, by the letter of the escape. -/
def numberLength? (c : Char) : Option Nat :=
  if c = 'x' then some 2 else if c = 'u' then some 4 else if c = 'U' then some 8 else none

/-- The character of a number, absent for halves of surrogate pairs and beyond the last one. -/
def character? (n : Nat) : Option Char :=
  if n < 0xD800 || (0xDFFF < n && n < 0x110000) then some (Char.ofNat n) else none

namespace LexState

/-- A character when no lexeme is open. -/
def opening (c : Char) : LexState × List Lexeme :=
  if c = ' ' || c = '\t' then (gap [c], [])
  else if c = '\n' then (between, [.newline])
  else if c = '\r' then (lineReturn, [])
  else if c = '#' then (comment, [])
  else if c = '"' then (opened .basic, [])
  else if c = '\'' then (opened .plain, [])
  else if isMark c then (between, [.mark c])
  else (bare [c], [])

/-- Whether a character ends a bare word. -/
def endsBare (c : Char) : Bool :=
  c = ' ' || c = '\t' || c = '\n' || c = '\r' || c = '#' || c = '"' || c = '\'' || isMark c

/-- The lexeme that closes, and what the next character does. -/
def closing (l : Lexeme) (c : Char) : LexState × List Lexeme :=
  let (state, ls) := opening c
  (state, l :: ls)

/-- The lexeme of blanks. -/
def gapLexeme (read : List Char) : Lexeme := .gap (read = [' '])

/-- The lexeme of a string. -/
def textLexeme (read : List Char) (isBlock : Bool) : Lexeme :=
  .text (String.ofList read.reverse) isBlock

/-- A character in a string of one line. -/
def inLine (q : Quote) (read : List Char) (c : Char) : Option (LexState × List Lexeme) :=
  if c = q.char then some (between, [textLexeme read false])
  else if q = .basic ∧ c = '\\' then some (escape false read, [])
  else if isControl c ∧ c ≠ '\t' then none
  else some (line q (c :: read), [])

/-- A character in a string of several lines that is no quote. The end of the line at its very
start does not count. -/
def inBlock (q : Quote) (read : List Char) (fresh : Bool) (c : Char) :
    Option (LexState × List Lexeme) :=
  if c = '\r' then some (blockReturn q read fresh, [])
  else if c = '\n' then some (block q (if fresh then read else c :: read) 0 false, [])
  else if q = .basic ∧ c = '\\' then some (escape true read, [])
  else if isControl c ∧ c ≠ '\t' then none
  else some (block q (c :: read) 0 false, [])

/-- A string goes on after an escape. -/
def resume (isBlock : Bool) (read : List Char) : LexState :=
  if isBlock then block .basic read 0 false else line .basic read

/-- **One step of the machine**: the state after a character, and the lexemes it completes. -/
def step : LexState → Char → Option (LexState × List Lexeme)
  | between, c => some (opening c)
  | bare read, c =>
    if endsBare c then some (closing (.bare read.reverse) c) else some (bare (c :: read), [])
  | gap read, c =>
    if c = ' ' || c = '\t' then some (gap (c :: read), []) else some (closing (gapLexeme read) c)
  | comment, c =>
    if c = '\n' then some (between, [.newline])
    else if c = '\r' then some (lineReturn, [])
    else if isControl c ∧ c ≠ '\t' then none
    else some (comment, [])
  | lineReturn, c => if c = '\n' then some (between, [.newline]) else none
  | opened q, c => if c = q.char then some (openedTwice q, []) else inLine q [] c
  | openedTwice q, c =>
    if c = q.char then some (block q [] 0 true, []) else some (closing (textLexeme [] false) c)
  | line q read, c => inLine q read c
  | block q read quotes fresh, c =>
    if c = q.char then
      if quotes = 4 then some (between, [textLexeme (q.char :: q.char :: read) true])
      else some (block q read (quotes + 1) false, [])
    else
      let held := List.replicate quotes q.char
      if 3 ≤ quotes then some (closing (textLexeme (held.drop 3 ++ read) true) c)
      else inBlock q (held ++ read) fresh c
  | blockReturn q read fresh, c =>
    if c = '\n' then
      some (block q (if fresh then read else '\n' :: '\r' :: read) 0 false, [])
    else none
  | escape isBlock read, c =>
    match escaped? c, numberLength? c with
    | some d, _ => some (resume isBlock (d :: read), [])
    | none, some n => some (number isBlock read n 0, [])
    | none, none =>
      if isBlock = false then none
      else if c = ' ' || c = '\t' then some (fold read, [])
      else if c = '\n' then some (folded read, [])
      else if c = '\r' then some (foldReturn read, [])
      else none
  | number isBlock read missing value, c => do
    let digit ← hexValue? c
    let value := value * 16 + digit
    if missing ≤ 1 then
      let d ← character? value
      some (resume isBlock (d :: read), [])
    else some (number isBlock read (missing - 1) value, [])
  | fold read, c =>
    if c = ' ' || c = '\t' then some (fold read, [])
    else if c = '\n' then some (folded read, [])
    else if c = '\r' then some (foldReturn read, [])
    else none
  | foldReturn read, c => if c = '\n' then some (folded read, []) else none
  | folded read, c =>
    if c = ' ' || c = '\t' || c = '\n' then some (folded read, [])
    else if c = '\r' then some (foldReturn read, [])
    else if c = '"' then some (block .basic read 1 false, [])
    else inBlock .basic read false c

/-- What is still open at the end of the text. -/
def finish : LexState → Option (List Lexeme)
  | between => some []
  | comment => some []
  | bare read => some [.bare read.reverse]
  | gap read => some [gapLexeme read]
  | openedTwice _ => some [textLexeme [] false]
  | block q read quotes _ =>
    if 3 ≤ quotes then some [textLexeme ((List.replicate quotes q.char).drop 3 ++ read) true]
    else none
  | _ => none

end LexState

/-- **The machine.** -/
def lexer : Lexer LexState Lexeme where
  between := .between
  step := LexState.step
  finish := LexState.finish
  finish_between := rfl

@[simp] theorem lexer_step (state : LexState) (c : Char) : lexer.step state c = state.step c := rfl

/-- **The lexemes of a text**, absent when it cannot be cut. A byte order mark at its start does
not count. -/
def Lexeme.ofText? (s : String) : Option (List Lexeme) :=
  lexer.lexemes? <|
    match s.toList with
    | c :: cs => if c.toNat = 0xFEFF then cs else c :: cs
    | [] => []

end Leasehold.Toml
