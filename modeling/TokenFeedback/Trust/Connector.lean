import TokenFeedback.Log
import TokenFeedback.ServerName
import TokenFeedback.Trust.Certificate
import TokenFeedback.Trust.Config
import TokenFeedback.Trust.KeyPair

/-!
# Connectors

Settings of trust that were looked through and found usable. A connector is built once and serves
every session.

* `Connector.build`: looks through the roots, then the identity. Roots are not looked at if any
  server is trusted.
* `Connector.prepared`: a connector whose trust was settled elsewhere; of the settings only the
  name counts.
* `Connector.serverName`: the name to check, if it is one.
-/

namespace TokenFeedback

/-- Whose certificates to take. -/
inductive Verifier where
  | anyone
  | anchors (certificates : List Certificate)
  | publicRoots
  deriving Repr, DecidableEq

structure Connector where
  config : TrustConfig
  versions : List TlsVersion
  verifier : Verifier
  deriving Repr, DecidableEq

namespace Connector

def trustWarning : LogEntry :=
  .event .warn
    ("trust_server_certificate is enabled - certificate validation is DISABLED. " ++
      "This is insecure and should only be used for development/testing. " ++
      "Connections are vulnerable to man-in-the-middle attacks.") []

def noIdentityNote : LogEntry := .event .debug "no provider certificate configured" []

/-- Whose certificates settings take, and the warning that goes with it. -/
def verifierOf (c : TrustConfig) : Except TrustError Verifier × List LogEntry :=
  if c.trustsAll then (.ok .anyone, [trustWarning])
  else if c.roots.isEmpty then (.ok .publicRoots, [])
  else
    match c.roots.mapM Certificate.anchorOfDer with
    | .ok certificates => (.ok (.anchors certificates), [])
    | .error f => (.error (.invalidCertificate f.message), [])

/-- Why an identity cannot be shown to a server: the key is not usable, or it is not the key of the
first certificate. -/
def identityFault? (i : Identity) : Option String :=
  match i.key.publicKey? with
  | none => some "unexpected error: failed to parse private key as RSA, ECDSA, or EdDSA"
  | some key =>
    match i.chain with
    | [] => some "peer sent no certificates"
    | der :: _ =>
      match Certificate.ofDer der with
      | .error f => some f.message
      | .ok cert =>
        if cert.publicKey = key then none else some "keys may not be consistent: KeyMismatch"

/-- Looks through the identity, and notes it if there is none. -/
def checkIdentity : Option Identity → Except TrustError Unit × List LogEntry
  | none => (.ok (), [noIdentityNote])
  | some i =>
    match identityFault? i with
    | none => (.ok (), [])
    | some fault => (.error (.configuration ("provider certificate rejected: " ++ fault)), [])

/-- Looks through settings: the connector for them or what is wrong, and what was noted. -/
def build (c : TrustConfig) : Except TrustError Connector × List LogEntry :=
  match verifierOf c with
  | (.error e, log) => (.error e, log)
  | (.ok verifier, log) =>
    match checkIdentity c.identity with
    | (.error e, log') => (.error e, log ++ log')
    | (.ok _, log') => (.ok ⟨c, c.versions, verifier⟩, log ++ log')

/-- A connector whose trust was settled elsewhere. -/
def prepared (verifier : Verifier) (c : TrustConfig) : Connector := ⟨c, [.v12, .v13], verifier⟩

/-- The name to check when connecting to a host. -/
def serverName (c : Connector) (host : String) : Except TrustError ServerName :=
  match ServerName.ofText? (c.config.nameFor host) with
  | some name => .ok name
  | none => .error (.invalidServerName (c.config.nameFor host))

def debugText (c : Connector) : String :=
  Text.openOutline "TlsConnector" [("config", c.config.debugText)]

end Connector

end TokenFeedback
