import TokenFeedback.Session.Error

/-!
# Runtimes

What carries out the tasks of callers that cannot wait themselves.
-/

namespace TokenFeedback

inductive Runtime where
  /-- Works only while its owner waits for it. -/
  | currentThread
  | multiThread
  deriving Repr, DecidableEq

/-- A caller that blocks its thread needs a runtime with threads of its own. -/
def Runtime.checkBlocking : Runtime → Except SessionError Unit
  | .currentThread => .error (.config "blocking client requires a multi-thread tokio runtime")
  | .multiThread => .ok ()

end TokenFeedback
