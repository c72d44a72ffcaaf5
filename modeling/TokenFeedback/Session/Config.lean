import TokenFeedback.Session.Error
import TokenFeedback.Span
import TokenFeedback.Stream.Idle
import TokenFeedback.Trust.Connector

/-!
# Settings of sessions

Where the service is, how long it may be silent, and how it is trusted.

* `Config.fault?`: the value that can never work, if there is one: of several, the host counts
  first, then the port number, then the idle span.
* `Connection.build`: settings that were looked through.
-/

namespace TokenFeedback

/-- Where the service is. -/
structure Environment where
  host : String
  portNumber : Nat
  deriving Repr, DecidableEq

namespace Environment

def standardPort : Nat := 2196

def production : Environment := ⟨"feedback.push.apple.com", standardPort⟩
def sandbox : Environment := ⟨"feedback.sandbox.push.apple.com", standardPort⟩

/-- The address to dial. -/
def address (e : Environment) : String := s!"{e.host}:{e.portNumber}"

/-- Is the host given by its address? Every other host has to be looked up first. -/
def isLiteral (e : Environment) : Bool :=
  (Ipv4.ofText? e.host).isSome || (Ipv6.ofText? e.host).isSome

/-- Why the host cannot even be looked up, if it cannot. -/
def lookupFault? (e : Environment) : Option IoError :=
  if e.host.toList.contains '\x00' then some .nulInName else none

def debugText (e : Environment) : String :=
  Text.outline "FeedbackEnvironment" [("host", Text.quoted e.host), ("port", s!"{e.portNumber}")]

end Environment

structure Config where
  environment : Environment
  /-- A silence as long as this ends the stream. -/
  idle : Span
  trust : TrustConfig
  deriving Repr, DecidableEq

namespace Config

/-- The settings for an environment: one second of silence, and the standard trust. -/
def standard (e : Environment) : Config := ⟨e, ⟨1, 0⟩, .standard⟩

/-- Why the settings can never work, if they cannot. -/
def fault? (c : Config) : Option String :=
  if c.environment.host.isEmpty then some "feedback host must not be empty"
  else if c.environment.portNumber = 0 then some "feedback port must not be zero"
  else if c.idle.isZero then some "idle timeout must be greater than zero"
  else none

def validate (c : Config) : Except SessionError Unit :=
  match c.fault? with
  | some reason => .error (.config reason)
  | none => .ok ()

def debugText (c : Config) : String :=
  Text.outline "Config"
    [("environment", c.environment.debugText), ("idle_timeout", c.idle.text),
      ("tls", c.trust.debugText)]

end Config

/-- Settings that sessions can be run with, and the clock of the host that they are run on. -/
structure Connection where
  config : Config
  connector : Connector
  clock : Clock
  deriving Repr, DecidableEq

namespace Connection

/-- Looks through settings: the connection or what is wrong, and what was noted. With a verifier
that was settled elsewhere, the settings of trust are not looked at. -/
def build (c : Config) (settled : Option Verifier) (clock : Clock := .young) :
    Except SessionError Connection × List LogEntry :=
  match c.validate with
  | .error e => (.error e, [])
  | .ok _ =>
    match settled with
    | some verifier => (.ok ⟨c, .prepared verifier c.trust, clock⟩, [])
    | none =>
      match Connector.build c.trust with
      | (.ok k, log) => (.ok ⟨c, k, clock⟩, log)
      | (.error e, log) => (.error (.pipeline e.message), log)

end Connection

end TokenFeedback
