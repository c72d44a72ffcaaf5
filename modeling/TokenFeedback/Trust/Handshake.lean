import TokenFeedback.Trust.Dialogue

/-!
# Handshakes

How a client and its peer come to an agreement.

* `Connector.agree`: the version they agree on, or why they do not: first comes the version, then
  the trust in the peer's certificate, then its names.
* `Connector.handshake`: the agreement and what is noted of it.
-/

namespace TokenFeedback

/-- A server that speaks the protocol: its certificate, the domain names on it, and the versions
it speaks. -/
structure TlsServer where
  certificate : Bytes
  names : List String
  versions : List TlsVersion
  deriving Repr, DecidableEq

namespace TlsServer

/-- A server with a certificate of its own making. -/
def selfSigned (names : List String) (versions : List TlsVersion) : TlsServer :=
  ⟨Certificate.selfSigned names, names, versions⟩

end TlsServer

/-- Who answers the client. -/
inductive Peer where
  | server (s : TlsServer)
  /-- Someone who says these bytes and hangs up. -/
  | stranger (reply : Bytes)
  deriving Repr, DecidableEq

namespace Verifier

/-- Looks through the server's certificate, which has to be good for this name. -/
def check (v : Verifier) (name : ServerName) (s : TlsServer) : Except Distrust Unit :=
  if v = .anyone then .ok ()
  else do
    v.vouch s.certificate
    if s.names.any name.isCoveredBy then return ()
    throw (.wrongName name.text s.names)

end Verifier

namespace Connector

/-- The newest version that both offer. -/
def commonVersion? (offered spoken : List TlsVersion) : Option TlsVersion :=
  [TlsVersion.v13, .v12].find? fun v => offered.contains v && spoken.contains v

/-- The version that the client and its peer agree on. -/
def agree (c : Connector) (name : ServerName) : Peer → Except IoError TlsVersion
  | .stranger reply => .error ((c.client name).faultOf reply).toIoError
  | .server s =>
    match commonVersion? c.versions s.versions with
    | none => .error (HandshakeFault.alert "ProtocolVersion").toIoError
    | some version =>
      match c.verifier.check name s with
      | .error d => .error (.custom .invalidData d.message)
      | .ok _ => .ok version

def handshakeStarted (name : ServerName) : LogEntry :=
  .event .debug "performing TLS handshake" [("server_name", .text name.debugText)]

def handshakeDone : LogEntry := .event .debug "TLS handshake completed successfully" []

/-- Shakes hands with a peer under the given name. -/
def handshake (c : Connector) (name : ServerName) (peer : Peer) :
    Except TrustError TlsVersion × List LogEntry :=
  match c.agree name peer with
  | .ok version => (.ok version, [handshakeStarted name, handshakeDone])
  | .error e => (.error (.handshakeFailed e), [handshakeStarted name])

/-- Works out the name to check for a host, and shakes hands. -/
def connect (c : Connector) (host : String) (peer : Peer) :
    Except TrustError TlsVersion × List LogEntry :=
  match c.serverName host with
  | .ok name => c.handshake name peer
  | .error e => (.error e, [])

end Connector

end TokenFeedback
