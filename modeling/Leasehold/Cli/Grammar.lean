import Leasehold.Aggregation.Model
import Leasehold.Hook.Model
import Leasehold.Text.Digits

/-!
# Grammars of command lines

A grammar says which words may stand in a command line: the options, the arguments in their order,
and the commands that may follow, each with a grammar of its own.

* `Leasehold.Cli.ValueKind` – what a value has to be;
* `Leasehold.Cli.OptionRule`, `Leasehold.Cli.ArgumentRule` – the rules for one option and one
  argument;
* `Leasehold.Cli.Grammar` – the rules of a command.
-/

namespace Leasehold.Cli

/-- **What a value has to be.** -/
inductive ValueKind where
  /-- Any text. -/
  | text
  /-- A path, which is not empty. -/
  | path
  /-- An integer of 64 bits without sign. -/
  | word
  /-- An integer of 64 bits with sign. -/
  | integer
  /-- The name of a mode. -/
  | mode
  /-- The name of a category. -/
  | category
deriving DecidableEq

/-- The integer of 64 bits without sign in a text. -/
def word? (s : String) : Option UInt64 :=
  (Text.naturalUpTo? 18446744073709551615 s.toList).map UInt64.ofNat

/-- The integer of 64 bits with sign in a text. -/
def integer? (s : String) : Option Int := Text.integer64? s.toList

/-- **Whether a text is a value** of some kind. -/
def ValueKind.admits (k : ValueKind) (s : String) : Bool :=
  match k with
  | text => true
  | path => s ≠ ""
  | word => (word? s).isSome
  | integer => (integer? s).isSome
  | mode => (Mode.ofName? s).isSome
  | category => (Category.ofName? s).isSome

/-- **An option.** -/
structure OptionRule where
  /-- Its name, after two dashes. -/
  name : String
  /-- Its letter, after one dash. -/
  letter : Option Char := none
  /-- The value it takes, if it takes one. -/
  value : Option ValueKind := none
  /-- The variable that gives it, if there is one. -/
  variableName : Option String := none
  /-- The value it has when it is not given, if there is one. -/
  standard : Option String := none
  /-- What it does. -/
  about : String := ""

/-- **An argument.** -/
structure ArgumentRule where
  /-- Its name. -/
  name : String
  /-- What it has to be. -/
  kind : ValueKind
  /-- Whether it may be a negative number. -/
  maySign : Bool := false

/-- **The grammar of a command.** -/
structure Grammar where
  /-- The name of the command. -/
  name : String
  /-- What it does. -/
  about : String
  /-- The options of this command alone. -/
  options : List OptionRule := []
  /-- The arguments, all of which have to be given. -/
  arguments : List ArgumentRule := []
  /-- The commands that may follow. -/
  commands : List Grammar := []
  /-- Whether one of them has to follow. -/
  needsCommand : Bool := true

namespace Grammar

/-- The command of a name that may follow. -/
def command? (g : Grammar) (name : String) : Option Grammar := g.commands.find? (·.name = name)

end Grammar

/-! ### Options of every command -/

/-- Asks for help. -/
def helpRule : OptionRule := { name := "help", letter := some 'h', about := "Print help" }

/-- Asks for the version. -/
def versionRule : OptionRule := { name := "version", letter := some 'V', about := "Print version" }

/-- The command that asks for help. -/
def helpCommand : String := "help"

/-- What that command does. -/
def helpAbout : String := "Print this message or the help of the given subcommand(s)"

end Leasehold.Cli
