import TokenFeedback.IoError
import TokenFeedback.Text.Blank
import TokenFeedback.Text.Digits
import TokenFeedback.Text.Outline
import TokenFeedback.Text.Path
import TokenFeedback.Text.Utf8

/-!
# The site of the work

The directories that a task finds, the calls that it makes, and what it prints.

* `Site`: what surrounds a task.
* `Site.reach`: the way to a directory, step by step.
* `Work`: a task's doing; it makes calls and prints, and may end with a fault.
* `call`: one call, shown before it is made.
* `Site.workspace`: the directory of the workspace.
-/

namespace TokenFeedback.Automation

/-- What surrounds a task. -/
structure Site where
  /-- The directory in which the task is started. -/
  start : String
  /-- What is answered to the question for the manifest of the workspace; nothing if nobody
  answers. -/
  located : Option Bytes
  /-- The names in a directory, if there is such a directory; its path has no idle parts. -/
  entries? : String → Option (List String)
  /-- The exit status of a call, by the number of calls before it. -/
  status : Nat → Nat

namespace Site

/-- The longest name of a file, in bytes. -/
def nameLimit : Nat := 255

/-- Paths are shorter than this, in bytes. -/
def pathLimit : Nat := 4096

/-- One step from a directory to what is in it: that has to be a directory too. -/
def enter (site : Site) (back : List (List Char)) (part : List Char) :
    Except IoError (List (List Char)) :=
  let name := String.ofList part
  if nameLimit < name.utf8ByteSize then .error .nameTooLong
  else if (site.entries? (Path.ofWay (part :: back))).isSome then .ok (part :: back)
  else if ((site.entries? (Path.ofWay back)).getD []).contains name then .error .notADirectory
  else .error .missing

/-- The way through the parts of a path, the last step first. Steps up lead back on the way that was
taken, so each directory in front of them has to be there. -/
def follow (site : Site) (back : List (List Char)) :
    List (List Char) → Except IoError (List (List Char))
  | [] => .ok back
  | part :: later =>
    if Path.isIdle part then site.follow back later
    else if part = ['.', '.'] then site.follow back.tail later
    else
      match site.enter back part with
      | .ok back => site.follow back later
      | .error e => .error e

/-- The directory to which an absolute path leads, without idle parts and steps up. -/
def reach (site : Site) (path : String) : Except IoError String :=
  if path.toList.contains '\x00' then .error .nulInDirectory
  else if pathLimit ≤ path.utf8ByteSize then .error .nameTooLong
  else (site.follow [] (Path.parts path)).map Path.ofWay

/-- The names in the directory to which a path leads, if it leads to one. -/
def namesAt? (site : Site) (path : String) : Option (List String) :=
  match site.reach path with
  | .ok directory => site.entries? directory
  | .error _ => none

end Site

/-- A call of the build tool. -/
structure ToolCall where
  /-- The directory in which the call is made. -/
  directory : String
  arguments : List String
  deriving DecidableEq, Repr

/-- Is the character one that separates words on a command line? -/
def isSeparator (c : Char) : Bool := [' ', '\t', '\n', '\x0c', '\r'].contains c

/-- A character between double quotes. -/
def quotedCharacter (c : Char) : String :=
  if c = '\t' then "\\t"
  else if c = '\r' then "\\r"
  else if c = '\n' then "\\n"
  else if c = '\'' ∨ c = '"' ∨ c = '\\' then String.ofList ['\\', c]
  else if ' ' ≤ c ∧ c ≤ '~' then String.singleton c
  else "\\u\x7b" ++ Text.hexNumber c.toNat ++ "\x7d"

/-- An argument as it is shown: in quotes if a separator is in it, otherwise as it is. -/
def shownArgument (argument : String) : String :=
  if argument.toList.any isSeparator then
    "\"" ++ String.join (argument.toList.map quotedCharacter) ++ "\""
  else argument

/-- The tool that all calls go to. -/
def tool : String := "cargo"

def ToolCall.shown (c : ToolCall) : String :=
  Text.join " " (tool :: c.arguments.map shownArgument)

/-- What a task has done. -/
structure Journal where
  calls : List ToolCall
  /-- What it has printed. -/
  output : String
  /-- What it has reported beside its output. -/
  report : String
  deriving DecidableEq, Repr

def Journal.empty : Journal := ⟨[], "", ""⟩

/-- Why a task ends early. -/
inductive TaskFault where
  | noTool (e : IoError)
  | garbledLocation (f : Text.Utf8Fault)
  | noWorkspace
  | noDirectory (path : String) (e : IoError)
  /-- The call cannot be made. -/
  | failedCall (call : ToolCall) (e : IoError)
  | status (call : ToolCall) (code : Nat)
  | noTargets (directory : String)
  | unknownTarget (name : String)
  | unknownFormat (name : String)

def TaskFault.message : TaskFault → String
  | .noTool _ => s!"failed to run {tool} locate-project"
  | .garbledLocation _ => s!"invalid UTF-8 in {tool} output"
  | .noWorkspace => "failed to get workspace root"
  | .noDirectory path e => "failed to get current directory `" ++ path ++ "`: " ++ e.text
  | .failedCall call e => "io error when running command `" ++ call.shown ++ "`: " ++ e.text
  | .status call code =>
    "command exited with non-zero code `" ++ call.shown ++ "`: " ++ toString code
  | .noTargets directory => "fuzz targets not found at " ++ directory
  | .unknownTarget name => "unknown fuzz target `" ++ name ++ "` (try --list)"
  | .unknownFormat name => "unsupported coverage format: " ++ name

/-- The fault behind a fault. -/
def TaskFault.cause? : TaskFault → Option String
  | .noTool e => some e.text
  | .garbledLocation f => some f.message
  | _ => none

/-- The report of a fault. -/
def TaskFault.report (f : TaskFault) : String :=
  let cause := match f.cause? with
    | some c => "\n\nCaused by:\n    " ++ c
    | none => ""
  "Error: " ++ f.message ++ cause ++ "\n"

/-- A task's doing: it writes a journal, and may end with a fault. -/
abbrev Work := ExceptT TaskFault (StateM Journal)

namespace Work

/-- Prints a line. -/
def print (line : String) : Work Unit :=
  modify fun j => { j with output := j.output ++ line ++ "\n" }

/-- Makes a call in a directory. -/
def call (site : Site) (directory : String) (arguments : List String) : Work Unit := do
  let call : ToolCall := ⟨directory, arguments⟩
  modify fun j => { j with report := j.report ++ "$ " ++ call.shown ++ "\n" }
  match site.reach directory with
  | .ok _ => pure ()
  | .error e => throw (if e = .missing then .noDirectory directory e else .failedCall call e)
  let earlier := (← get).calls
  set { ← get with calls := earlier ++ [call] }
  let code := site.status earlier.length
  if code ≠ 0 then throw (.status call code)

end Work

/-- The directory of the workspace: the one in which its manifest lies. -/
def Site.workspace (site : Site) : Except TaskFault String :=
  match site.located with
  | none => .error (.noTool .missing)
  | some bytes =>
    match Text.ofUtf8 bytes with
    | .error fault => .error (.garbledLocation fault)
    | .ok answer =>
      match Path.parent? (Text.trimmed answer) with
      | none => .error .noWorkspace
      | some directory => .ok (Path.under site.start directory)

end TokenFeedback.Automation
