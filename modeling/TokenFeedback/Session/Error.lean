import TokenFeedback.Session.Phase
import TokenFeedback.Trust.Error

/-!
# Failures of sessions

Why a session gave no records. No failure is tried again by itself.

* `SessionError.phase?`: the phase that failed.
* `SessionError.isConfiguration`: will every attempt fail like this one?
-/

namespace TokenFeedback

inductive SessionError where
  | connect (address : String) (io : IoError)
  | handshake (cause : TrustError)
  /-- The trusted channel cannot be set up with these settings. -/
  | pipeline (reason : String)
  | cancelled
  /-- The session broke down inside. -/
  | panicked (message : String)
  | config (reason : String)
  deriving Repr, DecidableEq

namespace SessionError

def message : SessionError → String
  | .connect address io => "failed to connect to feedback service at " ++ address ++ ": " ++ io.text
  | .handshake cause => "TLS handshake with feedback service failed: " ++ cause.message
  | .pipeline reason => "feedback pipeline misconfigured: " ++ reason
  | .cancelled => "feedback session cancelled"
  | .panicked message => "feedback session task failed: " ++ message
  | .config reason => "configuration error: " ++ reason

def phase? : SessionError → Option Phase
  | .connect _ _ => some .connecting
  | .handshake _ => some .handshaking
  | _ => none

def isCancelled : SessionError → Bool
  | .cancelled => true
  | _ => false

def isConfiguration : SessionError → Bool
  | .pipeline _ => true
  | .config _ => true
  | _ => false

/-- The text of the failure below this one. -/
def source? : SessionError → Option String
  | .connect _ io => some io.text
  | .handshake cause => some cause.message
  | _ => none

end SessionError

end TokenFeedback
