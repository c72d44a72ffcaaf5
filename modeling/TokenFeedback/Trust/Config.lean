import TokenFeedback.Text.Outline
import TokenFeedback.Trust.Identity

/-!
# Settings of trust

How a client is to trust a server, and what it shows of itself.

* `TrustConfig`: the settings; `TrustConfig.standard` checks servers against the public roots and
  shows nothing.
* `TrustConfig.nameFor`: the name to check, which is the host unless another is set.
* `TrustConfig.versions`: the protocol versions to offer.
-/

namespace TokenFeedback

inductive TlsVersion where
  | v12
  | v13
  deriving Repr, DecidableEq

namespace TlsVersion

def number : TlsVersion → Nat
  | .v12 => 2
  | .v13 => 3

instance : Ord TlsVersion := ⟨fun a b => compare a.number b.number⟩
instance : LE TlsVersion := ⟨fun a b => a.number ≤ b.number⟩
instance (a b : TlsVersion) : Decidable (a ≤ b) := inferInstanceAs (Decidable (a.number ≤ b.number))

def name : TlsVersion → String
  | .v12 => "Tls12"
  | .v13 => "Tls13"

end TlsVersion

structure TrustConfig where
  /-- Take any server for what it says it is. -/
  trustsAll : Bool
  /-- The certificates to trust; none stands for the public roots. -/
  roots : List Bytes
  identity : Option Identity
  /-- The name to check in place of the host. -/
  serverName : Option String
  minVersion : TlsVersion
  maxVersion : TlsVersion
  deriving Repr, DecidableEq

namespace TrustConfig

def standard : TrustConfig := ⟨false, [], none, none, .v12, .v13⟩

/-- The name to check when connecting to a host. -/
def nameFor (c : TrustConfig) (host : String) : String := c.serverName.getD host

/-- The versions within the bounds. If there are none, the older version is offered. -/
def versions (c : TrustConfig) : List TlsVersion :=
  match [TlsVersion.v12, .v13].filter fun v => c.minVersion ≤ v ∧ v ≤ c.maxVersion with
  | [] => [.v12]
  | vs => vs

/-- A certificate by its bytes. -/
def rootText (der : Bytes) : String :=
  Text.wrapped "CertificateDer" (if der.isEmpty then "" else "0x" ++ hexText der)

def debugText (c : TrustConfig) : String :=
  Text.outline "TlsConfig"
    [("trust_server_certificate", toString c.trustsAll),
      ("root_certificates", Text.listing (c.roots.map rootText)),
      ("identity", Text.optional (c.identity.map Identity.debugText)),
      ("server_name", Text.optional (c.serverName.map Text.quoted)),
      ("min_protocol_version", c.minVersion.name), ("max_protocol_version", c.maxVersion.name)]

end TrustConfig

end TokenFeedback
