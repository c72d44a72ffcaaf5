import TokenFeedback.Automation.Usage
import TokenFeedback.Text.Pieces
import TokenFeedback.Text.Plain

/-!
# Reading arguments

What the words behind a command give to it.

A switch is taken up only when the next switch arrives, when a word goes to the slot, or at the end:
until then its value is open. So a word that nobody knows is refused before a value that is missing
or wrong.

* `Word.ofText`: what a word looks like.
* `Command.read`: the switches and the word that a command is given.
* `Suite.read`: the command that is called, with what it is given.
-/

namespace TokenFeedback.Automation

/-! ## Faults -/

/-- Why a text is no number of 64 bits. -/
inductive NumberFault where
  | empty | digit | large
  deriving DecidableEq, Repr

def NumberFault.message : NumberFault → String
  | .empty => "cannot parse integer from empty string"
  | .digit => "invalid digit found in string"
  | .large => "number too large to fit in target type"

/-- Numbers of 64 bits are below it. -/
def numberLimit : Nat := 18446744073709551616

/-- One more digit of a number of 64 bits. -/
def appendDigit (n : Nat) (c : Char) : Except NumberFault Nat :=
  match Text.digit? 10 c with
  | none => .error .digit
  | some d => if n * 10 + d < numberLimit then .ok (n * 10 + d) else .error .large

/-- The number of 64 bits that a text spells; a plus may stand in front. -/
def number (s : String) : Except NumberFault Nat :=
  match s.toList with
  | [] => .error .empty
  | ['+'] => .error .digit
  | '+' :: digits => digits.foldlM appendDigit 0
  | digits => digits.foldlM appendDigit 0

/-- Why the words of a command line are refused. -/
inductive UsageError where
  | unknownCommand (word : String)
  | unexpected (word : String)
  | needlessValue (value : String) (switch : Switch)
  | missingValue (switch : Switch)
  | repeated (switch : Switch)
  | notNumber (value : String) (switch : Switch) (fault : NumberFault)
  | exclusive (switch other : Switch)
  deriving DecidableEq, Repr

/-- The error for people. Words are shown as plain text: they may hold anything. -/
def UsageError.message : UsageError → String
  | .unknownCommand word => s!"unrecognized subcommand '{Text.plain word}'"
  | .unexpected word => s!"unexpected argument '{Text.plain word}' found"
  | .needlessValue value s =>
    s!"unexpected value '{Text.plain value}' for '{s.shown}' found; no more were expected"
  | .missingValue s => s!"a value is required for '{s.shown}' but none was supplied"
  | .repeated s => s!"the argument '{s.shown}' cannot be used multiple times"
  | .notNumber value s fault =>
    s!"invalid value '{Text.plain value}' for '{s.shown}': {fault.message}"
  | .exclusive s other => s!"the argument '{s.shown}' cannot be used with '{other.shown}'"

/-- Why reading ends early. -/
inductive Halt where
  /-- An explanation is asked for. -/
  | explain
  | refuse (e : UsageError)
  deriving DecidableEq, Repr

def refuse {α : Type} (e : UsageError) : Except Halt α := .error (.refuse e)

/-! ## Words -/

/-- What a word looks like. -/
inductive Word where
  /-- Two hyphens: none of the later words is a switch. -/
  | divider
  /-- A switch by its name, perhaps with a value behind an equals sign. -/
  | long (name : String) (value : Option String)
  /-- Switches by their letters. -/
  | letters (first : Char) (later : List Char)
  | plain
  deriving DecidableEq, Repr

def Word.ofText (word : String) : Word :=
  match word.toList with
  | ['-', '-'] => .divider
  | '-' :: '-' :: rest =>
    let name := String.ofList (rest.takeWhile (· != '='))
    match rest.dropWhile (· != '=') with
    | [] => .long name none
    | _ :: value => .long name (some (String.ofList value))
  | '-' :: c :: rest => .letters c rest
  | _ => .plain

/-! ## One command -/

/-- What a command is given. -/
structure Given where
  /-- The switches in their order. -/
  switches : List (Switch × Option String)
  /-- The word in the slot. -/
  slot : Option String
  deriving DecidableEq, Repr

namespace Given

def empty : Given := ⟨[], none⟩

def has (g : Given) (long : String) : Bool := g.switches.any (·.1.long == long)

def value? (g : Given) (long : String) : Option String :=
  (g.switches.find? (·.1.long == long)).bind (·.2)

/-- Takes up a switch. -/
def add (g : Given) (s : Switch) (value : Option String) : Except Halt Given :=
  if s = .help then .error .explain
  else if s.value.isSome && value.isNone then refuse (.missingValue s)
  else if g.has s.long then refuse (.repeated s)
  else
    let taken : Given := { g with switches := g.switches ++ [(s, value)] }
    match value, s.numeric with
    | some v, true =>
      match number v with
      | .ok _ => .ok taken
      | .error fault => refuse (.notNumber v s fault)
    | _, _ => .ok taken

/-- The first switch that another one excludes, with that other one. -/
def clash? (g : Given) : Option (Switch × Switch) :=
  let given := g.switches.map (·.1)
  given.findSome? fun s =>
    (given.find? fun t => s.excludes.contains t.long || t.excludes.contains s.long).map (s, ·)

end Given

/-- How far reading has come. -/
structure Reading where
  given : Given
  /-- The last switch with a value, and the value if it has come. -/
  pending : Option (Switch × Option String)
  /-- Are the remaining words no switches? -/
  trailing : Bool

namespace Reading

def start : Reading := ⟨.empty, none, false⟩

/-- Takes up the switch that is still open. -/
def settle (r : Reading) : Except Halt Reading :=
  match r.pending with
  | none => .ok r
  | some (s, value) => (r.given.add s value).map fun g => { r with given := g, pending := none }

/-- A switch with all that belongs to it. -/
def take (r : Reading) (s : Switch) (value : Option String) : Except Halt Reading := do
  let r ← r.settle
  return { r with given := ← r.given.add s value }

/-- A switch whose value has to come with the next word. -/
def hold (r : Reading) (s : Switch) : Except Halt Reading := do
  let r ← r.settle
  return { r with pending := some (s, none) }

end Reading

namespace Command

/-- A switch by its name. -/
def readLong (c : Command) (r : Reading) (name : String) (value : Option String) :
    Except Halt Reading :=
  match c.allSwitches.find? (·.long == name) with
  | none => refuse (.unexpected ("--" ++ name))
  | some s =>
    match s.value, value with
    | none, some v => refuse (.needlessValue v s)
    | some _, none => r.hold s
    | _, _ => r.take s value

/-- Switches by their letters: the first one that takes a value takes all that follows as its
value, without an equals sign in front. -/
def readLetters (c : Command) (r : Reading) : List Char → Except Halt Reading
  | [] => .ok r
  | letter :: later =>
    match c.allSwitches.find? (·.short == some letter) with
    | none => refuse (.unexpected (String.ofList ['-', letter]))
    | some s =>
      match s.value, later with
      | none, _ => do c.readLetters (← r.take s none) later
      | some _, [] => r.hold s
      | some _, '=' :: value => r.take s (some (String.ofList value))
      | some _, value => r.take s (some (String.ofList value))

/-- A word for the slot. -/
def readSlot (c : Command) (r : Reading) (word : String) : Except Halt Reading :=
  if c.slot.isSome && r.given.slot.isNone then
    r.settle.map fun r => { r with given := { r.given with slot := some word } }
  else refuse (.unexpected word)

/-- A word that is no switch: the value that is waited for, or a word for the slot. -/
def readPlain (c : Command) (r : Reading) (word : String) : Except Halt Reading :=
  match r.pending, r.trailing with
  | some (s, none), false => .ok { r with pending := some (s, some word) }
  | _, _ => c.readSlot r word

def readWord (c : Command) (r : Reading) (word : String) : Except Halt Reading :=
  if r.trailing then c.readPlain r word
  else
    match Word.ofText word with
    | .divider => .ok { r with trailing := true }
    | .long name value => c.readLong r name value
    | .letters first later => c.readLetters r (first :: later)
    | .plain => c.readPlain r word

/-- What the words behind a command give to it. -/
def read (c : Command) (words : List String) : Except Halt Given := do
  let r ← (← words.foldlM c.readWord .start).settle
  match r.given.clash? with
  | some (s, other) => refuse (.exclusive s other)
  | none => return r.given

end Command

/-! ## All commands -/

/-- What a command line asks for. -/
inductive Request where
  | call (command : Command) (given : Given)
  | explain (text : String)
  /-- No command is named. -/
  | nothing
  | refused (e : UsageError)
  deriving DecidableEq, Repr

namespace Suite

/-- The explanation of what the words behind `explainer` name. No command has commands of its
own, so a second word names nothing. -/
def readExplainer (s : Suite) : List String → Request
  | [] => .explain s.help
  | [name] =>
    if name = explainer then .explain s.explainerHelp
    else
      match s.find? name with
      | some c => .explain (c.help s.program)
      | none => .refused (.unknownCommand name)
  | name :: next :: _ => .refused (.unknownCommand (if s.names name then next else name))

/-- A first word that names no command. -/
def readStray (s : Suite) (word : String) (later : List String) : Request :=
  match Word.ofText word with
  | .divider =>
    match later with
    | [] => .nothing
    | name :: _ => .refused (if s.names name then .unexpected name else .unknownCommand name)
  | .long name value =>
    if name = Switch.help.long then
      match value with
      | some v => .refused (.needlessValue v .help)
      | none => .explain s.help
    else .refused (.unexpected ("--" ++ name))
  | .letters first _ =>
    if some first = Switch.help.short then .explain s.help
    else .refused (.unexpected (String.ofList ['-', first]))
  | .plain => .refused (.unknownCommand word)

def read (s : Suite) : List String → Request
  | [] => .nothing
  | word :: later =>
    if word = explainer then s.readExplainer later
    else
      match s.find? word with
      | none => s.readStray word later
      | some c =>
        match c.read later with
        | .ok given => .call c given
        | .error .explain => .explain (c.help s.program)
        | .error (.refuse e) => .refused e

end Suite

end TokenFeedback.Automation
