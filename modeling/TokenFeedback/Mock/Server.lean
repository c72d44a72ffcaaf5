import TokenFeedback.Mock.Counters
import TokenFeedback.Mock.Session
import TokenFeedback.Session.World

/-!
# The stand-in for the service

A server that plays back scripted sessions: each connection takes the next script of a queue, and
the same one over and over when the queue is used up.

The pauses of a script are timed by the server, the silences by the client. Where both timers fire
at the same tick either side may have its turn first, so a server comes with a choice: at the end of
which pauses it is late.

* `MockSession.transport`: what a client meets who reads a scripted session.
* `MockServer.trust`: settings that trust the server.
* `MockServer.link`: what a client meets who connects.
-/

namespace TokenFeedback

/-- The server is gone without a good-bye. -/
def goneWithoutGoodbye : IoError :=
  .custom .unexpectedEof "peer closed connection without sending TLS close_notify"

/-- What a client reads at the end of a session. -/
def MockEnding.event : MockEnding → Transport.Event
  | .close => .close
  | .idle => .silence
  | .abort => .failure goneWithoutGoodbye

namespace MockSession

/-- How long a client finds nothing in a pause. The server's timer fires when the ticks of the pause
are over. A server that is late has its turn behind everything else that happens at that tick, the
client's own timer included: for the client that is the next tick. -/
def gap (pause : Span) (late : Bool) : Nat :=
  if pause.isZero then 0 else pause.ticks + late.toNat

/-- The chunks with pauses between them. `late` says at the end of which pauses the server is
late. -/
def chunkEvents (pause : Span) (late : Nat → Bool) : List Bytes → List Transport.Event
  | [] => []
  | [chunk] => [.data chunk]
  | chunk :: chunks =>
    let wait := if pause.isZero then [] else [Transport.Event.wait (gap pause (late 0))]
    .data chunk :: wait ++ chunkEvents pause (fun n => late (n + 1)) chunks

/-- What a client meets who reads the session. -/
def transport (s : MockSession) (late : Nat → Bool) : Transport :=
  .ofEvents (chunkEvents s.pause late s.chunks ++ [s.ending.event]) false

end MockSession

/-- What the server does with one connection. -/
inductive MockBehavior where
  | feedback (s : MockSession)
  /-- Answers in plain text. -/
  | plain
  deriving Repr, DecidableEq

/-- What the server says in plain text. -/
def plainReply : Bytes :=
  textBytes "HTTP/1.1 400 Bad Request\r\nConnection: close\r\n\r\n"

structure MockServer where
  portNumber : Nat
  queue : List MockBehavior
  fallback : MockBehavior
  counters : Counters
  /-- Does it still take connections? -/
  listening : Bool
  /-- Is it late at the end of a pause? By the numbers of the connection and of the pause. -/
  late : Nat → Nat → Bool

namespace MockServer

/-- The name on the server's certificate. -/
def name : String := "localhost"

/-- The host at which the server is reached. -/
def host : String := "127.0.0.1"

def channel : TlsServer := .selfSigned [name] [.v12, .v13]

/-- A new server, which is in time unless it is said to be late. -/
def start (portNumber : Nat) (queue : List MockBehavior) (fallback : Option MockBehavior) :
    MockServer :=
  ⟨portNumber, queue, fallback.getD (.feedback .empty), .start, true, fun _ _ => false⟩

/-- Adds to the queue when so many connections have been served: those that the queue had nothing
for were served by the fallback, and none of them takes what is added now. -/
def push (s : MockServer) (served : Nat) (b : MockBehavior) : MockServer :=
  { s with queue := s.queue ++ List.replicate (served - s.queue.length) s.fallback ++ [b] }

/-- Ends listening; what is queued stays. -/
def stop (s : MockServer) : MockServer := { s with listening := false }

/-- Where the server is found. -/
def environment (s : MockServer) : Environment := ⟨host, s.portNumber⟩

/-- Settings that trust the server. -/
def trust : TrustConfig :=
  { TrustConfig.standard with roots := [channel.certificate], serverName := some name }

/-- The verifier that trusts the server alone. -/
def verifier : Verifier :=
  .anchors (Certificate.anchorOfDer channel.certificate).toOption.toList

/-- What the connection with this number finds, counted from zero. -/
def behavior (s : MockServer) (i : Nat) : MockBehavior := s.queue.getD i s.fallback

/-- Who answers a client whose connection finds this behaviour. -/
def peerOf : MockBehavior → Peer
  | .feedback _ => .server channel
  | .plain => .stranger plainReply

/-- What a client reads once hands are shaken. -/
def transportOf (late : Nat → Bool) : MockBehavior → Transport
  | .feedback session => session.transport late
  | .plain => MockSession.empty.transport late

/-- What a client meets whose connection finds this behaviour. A client that has no name to check
hangs up before the handshake. -/
def linkTo (k : Connection) (late : Nat → Bool) (b : MockBehavior) : Link :=
  match (k.connector.serverName k.config.environment.host).toOption.map
      (k.connector.agree · (peerOf b)) with
  | some (.error e) => .strange e
  | _ => .streaming (transportOf late b)

/-- What the connection with this number meets. -/
def link (s : MockServer) (k : Connection) (i : Nat) : Link :=
  if s.listening && k.config.environment == s.environment then linkTo k (s.late i) (s.behavior i)
  else .refused .connectionRefused

/-- What the dials meet, by their number: the server, unless the host cannot be looked up or there
is no way to it. A host that is not given by its address is looked up first. -/
def network (s : MockServer) (barrier : Option IoError) (k : Connection) (i : Nat) : Link :=
  let link :=
    match k.config.environment.lookupFault? <|> barrier with
    | some e => .refused e
    | none => s.link k i
  if k.config.environment.isLiteral then link else link.lookedUp

end MockServer

end TokenFeedback
