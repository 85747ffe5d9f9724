import Leasehold.Json.Numeral
import Leasehold.Text.Escape
import Leasehold.Text.Lexer

/-!
# The lexemes of a JSON text

A JSON text is cut into marks, words, numerals and strings, with blanks between them. A state
machine reads it character by character; its state says which lexeme is open.

* `Leasehold.Json.Lexeme` – the lexemes;
* `Leasehold.Json.LexState`, `Leasehold.Json.lexer` – the machine;
* `Leasehold.Json.Lexeme.ofText?` – the lexemes of a text, absent when it cannot be cut.

A string may spell half of a surrogate pair, which is no character. Such a string is a lexeme
without content: a value that nobody reads may hold it, and reading it fails.
-/

namespace Leasehold.Json

open Text (Lexer hexValue? unescape?)

/-- **A lexeme** of a JSON text. -/
inductive Lexeme where
  /-- One of the marks between values. -/
  | mark (c : Char)
  /-- A row of lower-case letters. -/
  | word (letters : List Char)
  /-- A numeral. -/
  | numeral (n : Numeral)
  /-- A string; absent when it spells half of a surrogate pair. -/
  | text (content : Option String)
deriving DecidableEq

/-! ### The machine -/

/-- **The state of the machine**: which lexeme is open, and what of it was read, the last
character first. -/
inductive LexState where
  /-- No lexeme is open. -/
  | between
  /-- A word. -/
  | word (read : List Char)
  /-- A numeral. -/
  | numeral (read : List Char)
  /-- A string; its characters are absent once half of a surrogate pair stood alone. -/
  | text (read : Option (List Char))
  /-- A string, after a backslash; `high` is a first half of a surrogate pair right before. -/
  | escape (read : Option (List Char)) (high : Option Nat)
  /-- A string, within a character given by its number: how many digits are missing, and the
  number so far. -/
  | number (read : Option (List Char)) (high : Option Nat) (missing : Nat) (value : Nat)
  /-- A string, right after a first half of a surrogate pair. -/
  | afterHigh (read : Option (List Char)) (high : Nat)
deriving DecidableEq

/-- The blanks between lexemes. -/
def isGap (c : Char) : Bool := c = ' ' || c = '\n' || c = '\t' || c = '\r'

/-- The marks. -/
def isMark (c : Char) : Bool :=
  c = '[' || c = ']' || c = '\x7b' || c = '\x7d' || c = ':' || c = ','

/-- The characters of numerals. -/
def isNumeralChar (c : Char) : Bool :=
  Text.isDigit c || c = '-' || c = '+' || c = '.' || c = 'e' || c = 'E'

/-- The character of an escape of one letter. -/
def escaped? (c : Char) : Option Char := if c = '/' then some c else unescape? c

namespace LexState

/-- One more character of a string. -/
def push (c : Char) (read : Option (List Char)) : Option (List Char) := read.map (c :: ·)

/-- A character when no lexeme is open. -/
def opening (c : Char) : Option (LexState × List Lexeme) :=
  if isGap c then some (between, [])
  else if isMark c then some (between, [.mark c])
  else if c = '"' then some (text (some []), [])
  else if 'a' ≤ c ∧ c ≤ 'z' then some (word [c], [])
  else if c = '-' || Text.isDigit c then some (numeral [c], [])
  else none

/-- A character in a string, outside of escapes. -/
def inText (read : Option (List Char)) (c : Char) : Option (LexState × List Lexeme) :=
  if c = '"' then some (between, [.text (read.map fun cs => String.ofList cs.reverse)])
  else if c = '\\' then some (escape read none, [])
  else if c.toNat < 32 then none
  else some (text (push c read), [])

/-- A character given by its number is complete. A first half of a surrogate pair waits for the
second; a half that stays alone leaves the string without content. -/
def numbered (read : Option (List Char)) (high : Option Nat) (value : Nat) : LexState :=
  match high with
  | some h =>
    if 0xDC00 ≤ value ∧ value ≤ 0xDFFF then
      text (push (Char.ofNat (0x10000 + (h - 0xD800) * 0x400 + (value - 0xDC00))) read)
    else text none
  | none =>
    if 0xD800 ≤ value ∧ value ≤ 0xDBFF then afterHigh read value
    else if 0xDC00 ≤ value ∧ value ≤ 0xDFFF then text none
    else text (push (Char.ofNat value) read)

/-- The lexeme that a numeral closes with, and what the next character does. -/
def closing (l : Option Lexeme) (c : Char) : Option (LexState × List Lexeme) := do
  let l ← l
  let (state, ls) ← opening c
  some (state, l :: ls)

/-- The lexeme of a row of numeral characters. -/
def numeralLexeme? (read : List Char) : Option Lexeme :=
  (Numeral.ofText? read.reverse).map .numeral

/-- **One step of the machine**: the state after a character, and the lexemes it completes. -/
def step : LexState → Char → Option (LexState × List Lexeme)
  | between, c => opening c
  | word read, c =>
    if 'a' ≤ c ∧ c ≤ 'z' then some (word (c :: read), [])
    else closing (some (.word read.reverse)) c
  | numeral read, c =>
    if isNumeralChar c then some (numeral (c :: read), []) else closing (numeralLexeme? read) c
  | text read, c => inText read c
  | escape read high, c =>
    if c = 'u' then some (number read high 4 0, [])
    else
      (escaped? c).map fun d => (text (if high.isSome then none else push d read), [])
  | number read high missing value, c => do
    let digit ← hexValue? c
    let value := value * 16 + digit
    if missing ≤ 1 then some (numbered read high value, [])
    else some (number read high (missing - 1) value, [])
  | afterHigh read high, c =>
    if c = '\\' then some (escape read (some high), []) else inText none c

/-- What is still open at the end of the text. -/
def finish : LexState → Option (List Lexeme)
  | between => some []
  | word read => some [.word read.reverse]
  | numeral read => (numeralLexeme? read).map ([·])
  | _ => none

end LexState

/-- **The machine.** -/
def lexer : Lexer LexState Lexeme where
  between := .between
  step := LexState.step
  finish := LexState.finish
  finish_between := rfl

@[simp] theorem lexer_step (state : LexState) (c : Char) : lexer.step state c = state.step c := rfl

/-- **The lexemes of a text**, absent when it cannot be cut. -/
def Lexeme.ofText? (s : String) : Option (List Lexeme) := lexer.lexemes? s.toList

end Leasehold.Json
