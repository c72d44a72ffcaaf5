/-!
# Phases of a session

* `Phase`: what a session is doing.
* `StreamEnd`: how the stream of a session that succeeded came to its end. The service has no mark
  for the end: it hangs up or goes silent.
-/

namespace TokenFeedback

inductive Phase where
  | connecting
  | handshaking
  | streaming
  | terminated
  deriving Repr, DecidableEq

namespace Phase

def name : Phase → String
  | .connecting => "connecting"
  | .handshaking => "handshaking"
  | .streaming => "streaming"
  | .terminated => "terminated"

def all : List Phase := [.connecting, .handshaking, .streaming, .terminated]

/-- The phase with this name. -/
def ofName? (name : String) : Option Phase := all.find? fun p => p.name == name

/-- Does no other phase follow? -/
def isTerminal : Phase → Bool
  | .terminated => true
  | _ => false

end Phase

inductive StreamEnd where
  | peerClosed
  | idleTimeout
  | transportError
  deriving Repr, DecidableEq

namespace StreamEnd

def name : StreamEnd → String
  | .peerClosed => "peer_closed"
  | .idleTimeout => "idle_timeout"
  | .transportError => "transport_error"

def all : List StreamEnd := [.peerClosed, .idleTimeout, .transportError]

/-- The end with this name. -/
def ofName? (name : String) : Option StreamEnd := all.find? fun e => e.name == name

end StreamEnd

end TokenFeedback
