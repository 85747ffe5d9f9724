/-!
# Lexers

A lexer cuts a text into lexemes. It reads the text character by character; its state says which
lexeme is open, and a character may complete some.

* `Leasehold.Text.Lexer` – a lexer;
* `Leasehold.Text.Lexer.run`, `Leasehold.Text.Lexer.lexemes?` – the lexemes of a text, absent when
  it cannot be cut.
-/

namespace Leasehold.Text

/-- **A lexer** over its states and lexemes. -/
structure Lexer (State Lexeme : Type) where
  /-- The state in which no lexeme is open. -/
  between : State
  /-- The state after a character, and the lexemes that it completes. -/
  step : State → Char → Option (State × List Lexeme)
  /-- What is still open at the end of the text. -/
  finish : State → Option (List Lexeme)
  /-- Between lexemes a text may end. -/
  finish_between : finish between = some []

namespace Lexer

variable {State Lexeme : Type} (m : Lexer State Lexeme)

/-- The lexemes of what is left of a text. -/
def run (state : State) : List Char → Option (List Lexeme)
  | [] => m.finish state
  | c :: cs => do
    let (next, ls) ← m.step state c
    let rest ← run next cs
    some (ls ++ rest)

/-- **The lexemes of a text**, absent when it cannot be cut. -/
def lexemes? (cs : List Char) : Option (List Lexeme) := m.run m.between cs

end Lexer

end Leasehold.Text
