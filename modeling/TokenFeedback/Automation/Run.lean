import TokenFeedback.Automation.Site
import TokenFeedback.Automation.Task

/-!
# Carrying tasks out

What each task calls and prints, and how a whole command line ends.

* `Task.run`: a task in the directory of the workspace.
* `perform`: a command line from its arguments to its exit code.
-/

namespace TokenFeedback.Automation

open Work

/-- The packages whose tests talk to the stand-in server. -/
def serverSuites : List String := ["apns-feedback-client", "apns-feedback-testing"]

/-- Where fuzz targets lie, seen from the workspace. -/
def targetDirectory (root : String) : String :=
  Path.under (Path.under root "fuzz") "fuzz_targets"

/-- The names of the fuzz targets, in order. -/
def targets (site : Site) (root : String) : Work (List String) :=
  match site.namesAt? (targetDirectory root) with
  | none => throw (.noTargets (targetDirectory root))
  | some files => return (files.map Path.stem).mergeSort (fun a b => decide (a ≤ b))

/-- The flag for a form of coverage report. -/
def coverageFlag? (format : String) : Option String :=
  if ["html", "lcov", "json"].contains format then some ("--" ++ format) else none

namespace Task

def runFormat (site : Site) (root : String) (apply : Bool) : Work Unit := do
  call site root (["fmt", "--all"] ++ if apply then [] else ["--", "--check"])
  print (if apply then "✅ Formatting applied." else "✅ Formatting check passed.")

def runLint (site : Site) (root : String) (apply : Bool) : Work Unit := do
  call site root (["clippy", "--all-targets"] ++
    if apply then ["--fix", "--allow-dirty"] else ["--", "-D", "warnings"])
  print (if apply then "✅ Clippy suggestions applied." else "✅ Clippy check passed.")

def runTests (site : Site) (root : String) (tests : Tests) : Work Unit := do
  match tests with
  | .workspace => call site root ["test", "--workspace"]
  | .package name => call site root ["test", "-p", name]
  | .server =>
    for package in serverSuites do
      print s!"Running mock-server suites in {package}..."
      call site root ["test", "-p", package, "--tests"]
  print "✅ All tests passed."

def runDocument (site : Site) (root : String) (openAfter : Bool) : Work Unit := do
  call site root (["doc", "--workspace", "--no-deps"] ++ if openAfter then ["--open"] else [])
  print "✅ Documentation generated."

def runFuzz (site : Site) (root : String) (target : Option String) (seconds : Nat) :
    Work Unit := do
  let known ← targets site root
  let chosen ← match target with
    | none => pure known
    | some name => if known.contains name then pure [name] else throw (.unknownTarget name)
  for name in chosen do
    print s!"Fuzzing {name} for {seconds}s..."
    call site (Path.under root "fuzz")
      ["+nightly", "fuzz", "run", name, "--", s!"-max_total_time={seconds}"]

/-- A task in the directory of the workspace. -/
def run (site : Site) (root : String) : Task → Work Unit
  | .checks => do
    print "Running CI checks..."
    runFormat site root false
    runLint site root false
    runTests site root .workspace
    runDocument site root false
    print "\n✅ All CI checks passed!"
  | .format apply => runFormat site root apply
  | .lint apply => runLint site root apply
  | .test tests => runTests site root tests
  | .document openAfter => runDocument site root openAfter
  | .measure filter =>
    call site root (["bench", "-p", "apns-feedback-protocol", "--"] ++ filter.toList)
  | .listTargets => do
    let known ← targets site root
    print "Available fuzz targets:"
    for name in known do print s!"  - {name}"
  | .fuzz target seconds => runFuzz site root target seconds
  | .cover form =>
    match coverageFlag? form with
    | none => throw (.unknownFormat form)
    | some flag => call site root ["llvm-cov", "--workspace", flag]

end Task

/-- How a command line ends. -/
structure Outcome where
  code : Nat
  journal : Journal
  deriving DecidableEq, Repr

/-- A task, started at a site. -/
def begin (site : Site) (task : Task) : Work Unit := do
  let root ← liftExcept site.workspace
  task.run site root
where
  liftExcept : Except TaskFault String → Work String
    | .ok root => return root
    | .error fault => throw fault

/-- A command line from its arguments to its end. -/
def perform (site : Site) (words : List String) : Outcome :=
  match Order.ofArguments words with
  | .explain text => ⟨0, ⟨[], text, ""⟩⟩
  | .nothing => ⟨2, ⟨[], "", suite.help⟩⟩
  | .refused e => ⟨2, ⟨[], "", "error: " ++ e.message ++ "\n"⟩⟩
  | .perform task =>
    match (begin site task).run Journal.empty with
    | (.ok _, journal) => ⟨0, journal⟩
    | (.error fault, journal) => ⟨1, { journal with report := journal.report ++ fault.report }⟩

end TokenFeedback.Automation
