import TokenFeedback.Automation.Arguments

/-!
# Tasks

The chores of the workspace, and the commands that ask for them.

* `Task`: a chore with its choices.
* `suite`: the commands.
* `Order.ofArguments`: what a command line asks for.
-/

namespace TokenFeedback.Automation

/-- Which tests to run. -/
inductive Tests where
  | workspace
  | package (name : String)
  /-- The suites that talk to the stand-in server. -/
  | server
  deriving DecidableEq, Repr

/-- A chore. -/
inductive Task where
  /-- All that has to pass before a change is taken in. -/
  | checks
  | format (apply : Bool)
  | lint (apply : Bool)
  | test (tests : Tests)
  | document (openAfter : Bool)
  | measure (filter : Option String)
  | listTargets
  | fuzz (target : Option String) (seconds : Nat)
  | cover (format : String)
  deriving DecidableEq, Repr

namespace Task

/-- How long one target is fuzzed unless told otherwise, in seconds. -/
def defaultSeconds : Nat := 60

/-- The form of a coverage report unless told otherwise. -/
def defaultFormat : String := "html"

end Task

def fixSwitch (about : String) : Switch := .plain "fix" about

def packageSwitch : Switch :=
  { Switch.valued "package" "PACKAGE" "Test a specific package" with short := some 'p' }

def serverSwitch : Switch :=
  { Switch.plain "mock-server" "Only run the integration suites that use the mock server" with
    excludes := [packageSwitch.long] }

def openSwitch : Switch := .plain "open" "Open documentation in browser"

def secondsSwitch : Switch :=
  { Switch.valued "max-time" "MAX_TIME"
      s!"Maximum runtime per target in seconds [default: {Task.defaultSeconds}]" with
    numeric := true }

def listSwitch : Switch := .plain "list" "List available fuzz targets"

def formatSwitch : Switch :=
  .valued "format" "FORMAT" s!"Output format (html, lcov, json) [default: {Task.defaultFormat}]"

/-- A command with the task that it stands for. -/
structure Chore where
  command : Command
  task : Given → Task

def chores : List Chore := [
  ⟨⟨"ci", "Run all checks (format, lint, test, docs)", [], none⟩, fun _ => .checks⟩,
  ⟨⟨"fmt", "Run cargo fmt (--check by default, --fix to apply)",
      [fixSwitch "Apply formatting fixes"], none⟩,
    fun g => .format (g.has "fix")⟩,
  ⟨⟨"clippy", "Run clippy on every target", [fixSwitch "Apply clippy suggestions"], none⟩,
    fun g => .lint (g.has "fix")⟩,
  ⟨⟨"test", "Run tests", [packageSwitch, serverSwitch], none⟩,
    fun g => .test (
      if g.has serverSwitch.long then .server
      else
        match g.value? packageSwitch.long with
        | some name => .package name
        | none => .workspace)⟩,
  ⟨⟨"doc", "Generate documentation", [openSwitch], none⟩,
    fun g => .document (g.has openSwitch.long)⟩,
  ⟨⟨"bench", "Run benchmarks", [], some ⟨"FILTER", "Benchmark filter pattern"⟩⟩,
    fun g => .measure g.slot⟩,
  ⟨⟨"fuzz", "Run fuzz targets (requires cargo-fuzz + nightly)", [secondsSwitch, listSwitch],
      some ⟨"TARGET", "Fuzz target to run; every target when omitted"⟩⟩,
    fun g =>
      if g.has listSwitch.long then .listTargets
      else .fuzz g.slot (((g.value? secondsSwitch.long).bind fun v => (number v).toOption).getD
        Task.defaultSeconds)⟩,
  ⟨⟨"coverage", "Run code coverage", [formatSwitch], none⟩,
    fun g => .cover ((g.value? formatSwitch.long).getD Task.defaultFormat)⟩]

/-- The commands of the workspace. -/
def suite : Suite where
  program := "xtask"
  about := "Build automation for apns-feedback"
  commands := chores.map (·.command)

/-- What a command line asks for. -/
inductive Order where
  | perform (task : Task)
  | explain (text : String)
  | nothing
  | refused (e : UsageError)
  deriving DecidableEq, Repr

def Order.ofArguments (words : List String) : Order :=
  match suite.read words with
  | .explain text => .explain text
  | .nothing => .nothing
  | .refused e => .refused e
  | .call command given =>
    match chores.find? (·.command.name == command.name) with
    | some chore => .perform (chore.task given)
    | none => .nothing

end TokenFeedback.Automation
