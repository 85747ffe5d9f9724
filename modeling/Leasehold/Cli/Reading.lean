import Leasehold.Cli.Grammar

/-!
# Reading command lines

A command line is read word by word. A word is the value of the option before it, or an option, or
a command that follows, or an argument; after two dashes alone every word is an argument. Each
command has options of its own and those of the whole program, and none may be given twice to one
command.

* `Leasehold.Cli.Program` – a grammar, with the options of the whole program;
* `Leasehold.Cli.Halt` – why reading ends before the end;
* `Leasehold.Cli.ReadState.step` – reading one word;
* `Leasehold.Cli.Reading` – what a command line says;
* `Leasehold.Cli.Program.read` – reading all of it.

An option can also be given by a variable. It counts only where the command line does not give it,
but it has to be a value all the same.
-/

namespace Leasehold.Cli

/-- **A program**: the grammar of its command lines. -/
structure Program where
  /-- The commands. -/
  grammar : Grammar
  /-- The options of every command. -/
  everywhere : List OptionRule
  /-- The version. -/
  version : String

/-- What was given to a command. -/
structure Level where
  /-- The grammar of the command. -/
  grammar : Grammar
  /-- The options with their values, the latest first. -/
  options : List (String × String) := []
  /-- The arguments, in their order. -/
  arguments : List String := []

/-- **Why reading ends** before the end. -/
inductive Halt where
  /-- The command line does not follow the grammar. -/
  | usage
  /-- It asks for help with a command; its grammar comes first, then those it follows. -/
  | help (grammars : List Grammar)
  /-- It asks for the version. -/
  | version

/-- What may come next. -/
inductive Phase where
  /-- Any word. -/
  | anything
  /-- Arguments only. -/
  | arguments
  /-- The names of commands to get help with. -/
  | help
deriving DecidableEq

/-- **The state of the reader**: the commands, the latest first, and what may come next. -/
structure ReadState where
  /-- The latest command. -/
  level : Level
  /-- The commands before it, the latest first. -/
  before : List Level := []
  /-- The option whose value comes next. -/
  pending : Option OptionRule := none
  /-- What may come next. -/
  phase : Phase := .anything

namespace ReadState

/-! ### Options -/

/-- The options that may be given to the latest command. -/
def rules (p : Program) (s : ReadState) : List OptionRule :=
  s.level.grammar.options ++ p.everywhere ++ [helpRule] ++
    (if s.before.isEmpty then [versionRule] else [])

/-- The grammars of the commands, the latest first. -/
def grammars (s : ReadState) : List Grammar :=
  s.level.grammar :: s.before.map Level.grammar

/-- An option is given with a value, once to each command. -/
def give (r : OptionRule) (value : String) (s : ReadState) : Except Halt ReadState :=
  if s.level.options.any (·.1 = r.name) || !r.value.all (·.admits value) then .error .usage
  else
    .ok { s with
      pending := none
      level := { s.level with options := (r.name, value) :: s.level.options } }

/-- An option is met, perhaps with a value. -/
def meet (r : OptionRule) (value : Option String) (s : ReadState) : Except Halt ReadState :=
  if s.pending.isSome then .error .usage
  else
    match r.value, value with
    | none, some _ => .error .usage
    | none, none =>
      if r.name = helpRule.name then .error (.help s.grammars)
      else if r.name = versionRule.name then .error .version
      else s.give r ""
    | some _, some v => s.give r v
    | some _, none => .ok { s with pending := some r }

/-- An option by its name, perhaps with an equals sign and a value. -/
def byName (p : Program) (s : ReadState) (word : List Char) : Except Halt ReadState :=
  let name := String.ofList (word.takeWhile (· ≠ '='))
  let value :=
    match word.dropWhile (· ≠ '=') with
    | [] => none
    | _ :: v => some (String.ofList v)
  match (s.rules p).find? (·.name = name) with
  | some r => s.meet r value
  | none => .error .usage

/-- Options by their letters. -/
def byLetters (p : Program) (s : ReadState) (letters : List Char) : Except Halt ReadState :=
  letters.foldlM
    (fun s c =>
      match (s.rules p).find? (·.letter = some c) with
      | some r => s.meet r none
      | none => .error .usage)
    s

/-! ### Other words -/

/-- The rule for the argument that comes next. -/
def argument? (s : ReadState) : Option ArgumentRule :=
  s.level.grammar.arguments[s.level.arguments.length]?

/-- An argument is given. -/
def giveArgument (s : ReadState) (word : String) : Except Halt ReadState :=
  match s.argument? with
  | some r =>
    if r.kind.admits word then
      .ok { s with level := { s.level with arguments := s.level.arguments ++ [word] } }
    else .error .usage
  | none => .error .usage

/-- A command follows. -/
def enter (s : ReadState) (g : Grammar) : ReadState :=
  { s with level := { grammar := g }, before := s.level :: s.before }

/-- A word that is no option. -/
def plain (s : ReadState) (word : String) : Except Halt ReadState :=
  match s.pending with
  | some r => s.give r word
  | none =>
    match s.level.grammar.command? word with
    | some g => .ok (s.enter g)
    | none =>
      if word = helpCommand ∧ s.level.grammar.commands ≠ [] then .ok { s with phase := .help }
      else s.giveArgument word

/-- The name of a command to get help with. -/
def helpWith (s : ReadState) (word : String) : Except Halt ReadState :=
  match s.level.grammar.command? word with
  | some g => .ok (s.enter g)
  | none => .error .usage

/-- Whether a text is a number without sign, of which only whole ones are values. -/
def isNumeral (s : List Char) : Bool := s ≠ [] && s.all Text.isDigit

/-- **Reading one word.** -/
def step (p : Program) (s : ReadState) (word : String) : Except Halt ReadState :=
  match s.phase with
  | .help => s.helpWith word
  | .arguments => s.giveArgument word
  | .anything =>
    if s.pending.isNone ∧ (s.level.grammar.command? word).isSome then s.plain word
    else
      match word.toList with
      | ['-', '-'] => if s.pending.isSome then .error .usage else .ok { s with phase := .arguments }
      | '-' :: '-' :: rest => s.byName p rest
      | '-' :: c :: rest =>
        if isNumeral (c :: rest) && s.argument?.any (·.maySign) then s.plain word
        else s.byLetters p (c :: rest)
      | _ => s.plain word

end ReadState

/-! ### Whole command lines -/

/-- **What a command line says.** -/
structure Reading where
  /-- The names of the commands. -/
  commands : List String
  /-- The options with their values; those that count come first. -/
  options : List (String × String)
  /-- The arguments of the last command. -/
  arguments : List String

/-- The value of an option. -/
def Reading.option? (r : Reading) (name : String) : Option String := r.options.lookup name

/-- Whether an option was given. -/
def Reading.has (r : Reading) (name : String) : Bool := (r.option? name).isSome

/-- Whether the options that variables give are values, at a command that was not given them. -/
def Level.agrees (p : Program) (environment : List (String × String)) (l : Level) : Bool :=
  environment.all fun (name, value) =>
    l.options.any (·.1 = name) ||
      (p.everywhere.find? (·.name = name)).all fun r => r.value.all (·.admits value)

/-- The end of a command line. -/
def ReadState.finish (p : Program) (environment : List (String × String)) (s : ReadState) :
    Except Halt Reading :=
  let levels := s.level :: s.before
  if s.phase = .help then .error (.help s.grammars)
  else if s.pending.isSome ∨ s.level.arguments.length < s.level.grammar.arguments.length then
    .error .usage
  else if s.level.grammar.needsCommand ∧ s.level.grammar.commands ≠ [] then .error .usage
  else if levels.all (Level.agrees p environment) then
    .ok {
      commands := (levels.dropLast.map (·.grammar.name)).reverse
      options := levels.flatMap Level.options ++ environment
      arguments := s.level.arguments }
  else .error .usage

/-- **Reading a command line.** -/
def Program.read (p : Program) (environment : List (String × String)) (words : List String) :
    Except Halt Reading := do
  let s ← words.foldlM (ReadState.step p) { level := { grammar := p.grammar } }
  s.finish p environment

end Leasehold.Cli
