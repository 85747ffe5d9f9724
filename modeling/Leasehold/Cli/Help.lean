import Leasehold.Cli.Reading

/-!
# Help

The help for a command says what the command does, how it is used, which commands may follow, and
which arguments and options it has.

* `Leasehold.Cli.Program.help` – the help for a command;
* `Leasehold.Cli.OptionRule.comesBefore` – the order of options.

The options of a command and those of the whole program stand side by side: the first of each come
first, in the order of their letters and names, then the second of each, and so on. The options
that ask for help and for the version come last.
-/

namespace Leasehold.Cli

/-! ### Options -/

/-- What an option is ordered by among others at the same place: its letter, a small one before
its capital, or else its name. -/
def OptionRule.sortKey (r : OptionRule) : String :=
  match r.letter with
  | some c => String.ofList [c.toLower, if c.isLower then '0' else '1']
  | none => r.name

/-- **Whether an option comes before another one**, each with its place. -/
def OptionRule.comesBefore (a b : OptionRule × Nat) : Bool :=
  a.2 < b.2 || (a.2 = b.2 && a.1.sortKey ≤ b.1.sortKey)

/-- The options of a command, in their order. -/
def Program.optionsOf (p : Program) (g : Grammar) (isWhole : Bool) : List OptionRule :=
  ((g.options.zipIdx ++ p.everywhere.zipIdx).mergeSort OptionRule.comesBefore).map (·.1) ++
    [helpRule] ++ if isWhole then [versionRule] else []

/-- An option in words, with a place for its value. -/
def OptionRule.usage (r : OptionRule) : String :=
  let name := "--" ++ r.name
  let place := String.ofList (r.name.toList.map fun c => if c = '-' then '_' else c.toUpper)
  let withLetter :=
    match r.letter with
    | some c => "-" ++ String.ofList [c] ++ ", " ++ name
    | none => "    " ++ name
  if r.value.isSome then withLetter ++ " <" ++ place ++ ">" else withLetter

/-- What an option does, with the variable that gives it and the value it has otherwise. -/
def OptionRule.description (given : List (String × String)) (r : OptionRule) : String :=
  let variableNote :=
    r.variableName.map fun v => "[env: " ++ v ++ "=" ++ (given.lookup r.name).getD "" ++ "]"
  let standardNote := r.standard.map fun v => "[default: " ++ v ++ "]"
  let about := if r.about = "" then [] else [r.about]
  " ".intercalate (about ++ variableNote.toList ++ standardNote.toList)

/-! ### The whole -/

/-- Rows of two columns under a heading; nothing when there are none. -/
def titledRows (heading : String) (rows : List (String × String)) : String :=
  if rows = [] then ""
  else
    let width := (rows.map fun r => r.1.length).foldl max 0
    let row := fun (r : String × String) => "  " ++ Text.padRight width r.1 ++ "  " ++ r.2 ++ "\n"
    "\n" ++ heading ++ ":\n" ++ String.join (rows.map row)

/-- How a command is used. -/
def Grammar.usage (names : List String) (g : Grammar) : String :=
  let arguments := g.arguments.map fun r => "<" ++ r.name ++ ">"
  let command :=
    if g.commands.isEmpty then [] else if g.needsCommand then ["<COMMAND>"] else ["[COMMAND]"]
  "Usage: " ++ " ".intercalate (names ++ ["[OPTIONS]"] ++ arguments ++ command) ++ "\n"

/-- **The help for a command**, given the options that variables give, its grammar and those it
follows, the latest first. -/
def Program.help (p : Program) (given : List (String × String)) : List Grammar → String
  | [] => ""
  | g :: before =>
    let commands := g.commands.map fun c => (c.name, c.about)
    let options := p.optionsOf g before.isEmpty
    g.about ++ "\n\n" ++ g.usage ((g :: before).reverse.map Grammar.name) ++
      titledRows "Commands"
        (if commands = [] then [] else commands ++ [(helpCommand, helpAbout)]) ++
      titledRows "Arguments" (g.arguments.map fun r => ("<" ++ r.name ++ ">", "")) ++
      titledRows "Options" (options.map fun r => (r.usage, r.description given))

end Leasehold.Cli
