import TokenFeedback.Trust.Verdict
import TokenFeedback.Trust.Wire

/-!
# Faults of handshakes

Why a client does not come to an agreement with its peer.

* `HandshakeFault.message`: the fault for people.
* `HandshakeFault.toIoError`: the fault as an error of the channel below.
-/

namespace TokenFeedback

inductive HandshakeFault where
  /-- The peer hung up. -/
  | hungUp
  /-- The peer hung up before it got the client's answer. -/
  | unanswerable
  | corrupt (c : Corruption)
  /-- The peer gave a reason for not going on. -/
  | alert (name : String)
  /-- Something of this sort came in place of another. -/
  | unexpected (got expected : String)
  /-- This message came in place of one of the others. -/
  | outOfTurn (got : String) (expected : List String)
  /-- The peer broke a rule. -/
  | misbehaved (rule : String)
  /-- The peer wants what the client does not have. -/
  | incompatible (reason : String)
  | undecryptable
  /-- The peer showed no certificate. -/
  | noCertificate
  | distrusted (d : Distrust)
  deriving Repr, DecidableEq

namespace HandshakeFault

def message : HandshakeFault → String
  | .hungUp => "tls handshake eof"
  | .unanswerable => (IoError.plain .brokenPipe).text
  | .corrupt c => "received corrupt message of type " ++ c.text
  | .alert name => "received fatal alert: " ++ name
  | .unexpected got expected =>
    "received unexpected message: got " ++ got ++ " when expecting " ++ expected
  | .outOfTurn got expected =>
    "received unexpected handshake message: got " ++ got ++ " when expecting " ++
      String.intercalate " or " expected
  | .misbehaved rule => "peer misbehaved: " ++ rule
  | .incompatible reason => "peer is incompatible: " ++ reason
  | .undecryptable => "cannot decrypt peer's message"
  | .noCertificate => "peer sent no certificates"
  | .distrusted d => d.message

/-- The fault as an error of the channel below. -/
def toIoError : HandshakeFault → IoError
  | .hungUp => .custom .unexpectedEof hungUp.message
  | .unanswerable => .plain .brokenPipe
  | f => .custom .invalidData f.message

end HandshakeFault

end TokenFeedback
