import TokenFeedback.Text.Digits

/-!
# What a command takes

Commands of a command line, the switches and the word that each of them takes, and the texts that
explain them.

* `Switch`: a word such as `--fix`, alone or with a value behind it.
* `Slot`: a place for one word that belongs to no switch.
* `Command.help`: the explanation of one command.
* `Suite.help`: the list of all commands.
-/

namespace TokenFeedback.Automation

/-- A switch of a command. -/
structure Switch where
  /-- Its name, behind two hyphens. -/
  long : String
  /-- Its letter, behind one hyphen. -/
  short : Option Char
  /-- The name of its value, if it takes one. -/
  value : Option String
  /-- Has the value to be a number? -/
  numeric : Bool
  about : String
  /-- The switches that may not stand beside it. -/
  excludes : List String
  deriving DecidableEq, Repr

namespace Switch

/-- A switch that takes no value. -/
def plain (long about : String) : Switch := ⟨long, none, none, false, about, []⟩

/-- A switch that takes a value. -/
def valued (long value about : String) : Switch := ⟨long, none, some value, false, about, []⟩

/-- The switch that asks for an explanation; every command takes it. -/
def help : Switch := { plain "help" "Print help" with short := some 'h' }

/-- The switch with its value, as texts refer to it. -/
def shown (s : Switch) : String :=
  match s.value with
  | some value => "--" ++ s.long ++ " <" ++ value ++ ">"
  | none => "--" ++ s.long

/-- The switch in the explanation of its command. -/
def entry (s : Switch) : String :=
  match s.short with
  | some c => String.ofList ['-', c] ++ ", " ++ s.shown
  | none => "    " ++ s.shown

end Switch

/-- A place for a word that belongs to no switch. -/
structure Slot where
  name : String
  about : String
  deriving DecidableEq, Repr

/-- A command. -/
structure Command where
  name : String
  about : String
  /-- What it takes besides `Switch.help`. -/
  switches : List Switch
  slot : Option Slot
  deriving DecidableEq, Repr

/-- Rows of two columns, the second one two blanks behind the widest entry of the first. -/
def table (title : String) (rows : List (String × String)) : String :=
  let width := rows.foldl (fun w row => max w row.1.length) 0
  let line (row : String × String) : String :=
    "  " ++ row.1 ++ String.ofList (List.replicate (width - row.1.length + 2) ' ') ++ row.2 ++ "\n"
  title ++ ":\n" ++ String.join (rows.map line)

namespace Command

/-- All switches of a command. -/
def allSwitches (c : Command) : List Switch := c.switches ++ [.help]

/-- How a command is called. -/
def usage (program : String) (c : Command) : String :=
  Text.join " " ([program, c.name] ++ (if c.switches.isEmpty then [] else ["[OPTIONS]"]) ++
    (c.slot.map fun s => "[" ++ s.name ++ "]").toList)

def slotTable (c : Command) : List String :=
  (c.slot.map fun s => table "Arguments" [("[" ++ s.name ++ "]", s.about)]).toList

/-- The explanation of a command. -/
def help (program : String) (c : Command) : String :=
  Text.join "\n" ([c.about ++ "\n", "Usage: " ++ c.usage program ++ "\n"] ++ c.slotTable ++
    [table "Options" (c.allSwitches.map fun s => (s.entry, s.about))])

end Command

/-- A program with several commands. -/
structure Suite where
  program : String
  about : String
  commands : List Command

namespace Suite

/-- The command that explains the others. -/
def explainer : String := "help"

def explainerAbout : String := "Print this message or the help of the given subcommand(s)"

def find? (s : Suite) (name : String) : Option Command := s.commands.find? (·.name == name)

/-- Does a word name a command? -/
def names (s : Suite) (word : String) : Bool := word == explainer || (s.find? word).isSome

/-- The explanation of the whole program. -/
def help (s : Suite) : String :=
  Text.join "\n" [s.about ++ "\n", "Usage: " ++ s.program ++ " <COMMAND>\n",
    table "Commands" ((s.commands.map fun c => (c.name, c.about)) ++ [(explainer, explainerAbout)]),
    table "Options" [(Switch.help.entry, Switch.help.about)]]

/-- The explanation of the command that explains. -/
def explainerHelp (s : Suite) : String :=
  Text.join "\n" [explainerAbout ++ "\n",
    "Usage: " ++ s.program ++ " " ++ explainer ++ " [COMMAND]...\n",
    table "Arguments" [("[COMMAND]...", "Print help for the subcommand(s)")]]

end Suite

end TokenFeedback.Automation
