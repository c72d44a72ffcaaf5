import TokenFeedback.IoError

/-!
# Failures of trust

What keeps a session from a trusted channel.

* `TrustError.message`: the failure for people.
* `TrustError.isConfiguration`: was the failure there before a byte was exchanged?
-/

namespace TokenFeedback

inductive TrustError where
  /-- The peers did not come to an agreement. -/
  | handshakeFailed (io : IoError)
  /-- The name is neither a domain name nor an address. -/
  | invalidServerName (name : String)
  | invalidCertificate (reason : String)
  | configuration (reason : String)
  /-- The channel's own machinery refused. -/
  | channel (reason : String)
  deriving Repr, DecidableEq

namespace TrustError

/-- A refusal for a reason of no particular sort. -/
def general (reason : String) : TrustError := .channel ("unexpected error: " ++ reason)

def message : TrustError → String
  | .handshakeFailed io => "TLS handshake failed: " ++ io.text
  | .invalidServerName name => "invalid server name: " ++ name
  | .invalidCertificate reason => "invalid certificate: " ++ reason
  | .configuration reason => "TLS configuration error: " ++ reason
  | .channel reason => "rustls error: " ++ reason

/-- Only a handshake depends on the peer. -/
def isConfiguration : TrustError → Bool
  | .handshakeFailed _ => false
  | _ => true

/-- The text of the failure below this one. -/
def source? : TrustError → Option String
  | .handshakeFailed io => some io.text
  | .channel reason => some reason
  | _ => none

end TrustError

end TokenFeedback
