import TokenFeedback.Automation.Run

/-!
# The command line

Rehearses a command line: it prints what the task prints and shows every call, and takes all calls
to succeed. Standard input holds the answer to the question for the manifest of the workspace.
-/

namespace TokenFeedback

/-- The names in a directory, if it can be read. -/
def namesIn? (directory : String) : IO (Option (List String)) := do
  try
    return some ((← ((← IO.currentDir) / directory).readDir).toList.map (·.fileName))
  catch _ => return none

/-- The site with what lies on the way to the directories that a task looks into. -/
def rehearsalSite (start : String) (located : Bytes) : IO Automation.Site := do
  let bare : Automation.Site := ⟨start, some located, fun _ => none, fun _ => 0⟩
  match bare.workspace with
  | .error _ => return bare
  | .ok root =>
    let looked := (Path.stations (Automation.targetDirectory root)).eraseDups
    let found ← looked.mapM fun directory => return (directory, ← namesIn? directory)
    return { bare with entries? := fun directory => (found.lookup directory).join }

end TokenFeedback

def main (args : List String) : IO UInt32 := do
  let located ← (← IO.getStdin).readToEnd
  let start ← IO.currentDir
  let site ← TokenFeedback.rehearsalSite start.toString (TokenFeedback.textBytes located)
  let outcome := TokenFeedback.Automation.perform site args
  IO.print outcome.journal.output
  IO.eprint outcome.journal.report
  return UInt32.ofNat outcome.code
