import TokenFeedback.Trust.Wire

/-!
# Extensions

Extensions of handshake messages: each has a number and a body, and is there once at most. Which
ones are known, and how they are written, differs from message to message.

* `ExtensionRules`: what extensions may be in a place of a message.
* `Wire.extensions`: reads extensions behind their length.
* `ExtensionRules.clientHello`, `ExtensionRules.serverHello` and so on: the rules of the messages.
-/

namespace TokenFeedback

/-- The numbers and the bodies of extensions. -/
abbrev Extensions := List (Nat × Bytes)

/-- What extensions may be in a place of a message. -/
structure ExtensionRules where
  place : String
  /-- How the bodies of those that are known in this place are written. -/
  body? : Nat → Option (Wire Unit)
  /-- Why others are refused, if they are. -/
  refusal? : Option Corruption
  /-- The one that nothing may follow. -/
  last? : Option Nat

namespace Wire

/-- An extension, when those in `seen` came before. -/
def extension (rules : ExtensionRules) (seen : Extensions) : Wire (Nat × Bytes) := do
  let id ← number 2 "ExtensionType"
  let again := seen.any fun e => e.1 = id
  within (← plain 2) do
    let body ← get
    match rules.body? id, rules.refusal? with
    | some shape, _ =>
      if again then fail (.duplicateExtension id)
      shape
      ending rules.place
    | none, some refusal => fail refusal
    | none, none => if again then fail (.duplicateExtension id)
    return (id, body)

/-- At most so many extensions, to the end of the input. -/
def extensionItems (rules : ExtensionRules) : Nat → Extensions → Wire Extensions
  | 0, seen => pure seen
  | limit + 1, seen => do
    if (← get).isEmpty then return seen
    let e ← extension rules seen
    if rules.last? = some e.1 ∧ !(← get).isEmpty then
      fail (.other "PreSharedKeyIsNotFinalExtension")
    extensionItems rules limit (seen ++ [e])

/-- Extensions behind their length. -/
def extensions (rules : ExtensionRules) : Wire Extensions := do
  within (← plain 2) fun input => extensionItems rules input.length [] input

end Wire

namespace ExtensionRules

open Wire

/-- Reads something whose value does not matter. -/
def skip {α : Type} (reader : Wire α) : Wire Unit := do let _ ← reader

def nothing : Wire Unit := ending "Empty"

def pointFormats : Wire Unit := skip (filledList 1 "ECPointFormats" (number 1 "ECPointFormat"))

def protocolName : Wire Bytes := filledRun 1

/-- A list of protocol names with one name in it. -/
def oneProtocol : Wire Unit := do
  within (← positive 2 (.emptyList "ProtocolNames")) do
    let _ ← protocolName
    ending "SingleProtocolName"

def keyShare : Wire Unit := do
  let _ ← number 2 "NamedGroup"
  skip (filledRun 2)

def schemes : Wire Unit := do
  within (← positive 2 (.other "NoSignatureSchemes")) (skip (toEnd (number 2 "SignatureScheme")))

def authorities : Wire Unit := skip (list (plain 2) (filledRun 2))

def compressions : Wire Unit :=
  skip (filledList 1 "CertificateCompressionAlgorithms"
    (number 2 "CertificateCompressionAlgorithm"))

def certificateStatus : Wire Unit := do
  if (← number 1 "CertificateStatusType") = 1 then skip (run 3)
  else fail (.other "InvalidCertificateStatusType")

/-- Names of servers, at most one of which is a host name. What follows a name of another sort
cannot be read. -/
def hostNames (again : Bool) : Nat → Wire Unit
  | 0 => pure ()
  | limit + 1 => do
    if (← get).isEmpty then return ()
    if (← number 1 "ServerNameType") = 0 then
      let _ ← filledRun 2
      if again then fail (.other "InvalidServerName")
      hostNames true limit

def serverNames : Wire Unit := do
  within (← plain 2) fun input => hostNames false input.length input

def statusRequest : Wire Unit := do
  if (← number 1 "CertificateStatusType") = 1 then
    let _ ← list (plain 2) (run 2)
    skip (run 2)
  else skip rest

def earlierKeys : Wire Unit := do
  let _ ← filledList 2 "PskIdentities" do
    let _ ← filledRun 2
    plain 4
  skip (filledList 2 "PskBinders" (filledRun 1))

/-- A greeting that is encrypted, or the mark that this is the greeting within. -/
def encryptedGreeting : Wire Unit := do
  match ← number 1 "EchClientHelloType" with
  | 0 =>
    let _ ← number 2 "HpkeKdf"
    let _ ← number 2 "HpkeAead"
    let _ ← plain 1
    let _ ← run 2
    skip (filledRun 2)
  | 1 => pure ()
  | _ => fail (.other "InvalidContentType")

def retryConfigurations : Wire Unit :=
  skip (list (plain 2) do
    let _ ← number 2 "EchVersion"
    run 2)

def clientHello : ExtensionRules where
  place := "ClientExtensions"
  body? := fun
    | 0 => some serverNames
    | 5 => some statusRequest
    | 10 => some (skip (filledList 2 "NamedGroups" (number 2 "NamedGroup")))
    | 11 => some pointFormats
    | 13 => some schemes
    | 16 => some (skip (filledList 2 "ProtocolNames" protocolName))
    | 19 => some (skip (filledList 1 "CertificateTypes" (number 1 "CertificateType")))
    | 20 => some (skip (filledList 1 "CertificateTypes" (number 1 "CertificateType")))
    | 23 => some nothing
    | 27 => some compressions
    | 35 => some (skip rest)
    | 41 => some earlierKeys
    | 42 => some nothing
    | 43 => some (skip (filledList 1 "ProtocolVersions" (number 2 "ProtocolVersion")))
    | 44 => some (skip (filledRun 2))
    | 45 => some (skip (filledList 1 "PskKeyExchangeModes" (number 1 "PskKeyExchangeMode")))
    | 47 => some authorities
    | 51 => some (skip (list (plain 2) keyShare))
    | 57 => some (skip rest)
    | 0xfd00 => some (skip (filledList 1 "ExtensionTypes" (number 2 "ExtensionType")))
    | 0xfe0d => some encryptedGreeting
    | 0xff01 => some (skip (run 1))
    | 0xffa5 => some (skip rest)
    | _ => none
  refusal? := none
  last? := some 41

def serverHello : ExtensionRules where
  place := "ServerExtensions"
  body? := fun
    | 0 => some nothing
    | 5 => some nothing
    | 11 => some pointFormats
    | 16 => some oneProtocol
    | 19 => some (skip (number 1 "CertificateType"))
    | 20 => some (skip (number 1 "CertificateType"))
    | 23 => some nothing
    | 35 => some nothing
    | 41 => some (skip (plain 2))
    | 42 => some nothing
    | 43 => some (skip (number 2 "ProtocolVersion"))
    | 51 => some keyShare
    | 57 => some (skip rest)
    | 0xfe0d => some retryConfigurations
    | 0xff01 => some (skip (run 1))
    | 0xffa5 => some (skip rest)
    | _ => none
  refusal? := none
  last? := none

def retryRequest : ExtensionRules where
  place := "HelloRetryRequestExtensions"
  body? := fun
    | 43 => some (skip (number 2 "ProtocolVersion"))
    | 44 => some (skip (filledRun 2))
    | 51 => some (skip (number 2 "NamedGroup"))
    | 0xfe0d => some (skip rest)
    | _ => none
  refusal? := some (.other "UnknownHelloRetryRequestExtension")
  last? := none

def certificate : ExtensionRules where
  place := "CertificateExtensions"
  body? := fun
    | 5 => some certificateStatus
    | _ => none
  refusal? := some (.other "UnknownCertificateExtension")
  last? := none

def certificateRequest : ExtensionRules where
  place := "CertificateRequestExtensions"
  body? := fun
    | 13 => some schemes
    | 27 => some compressions
    | 47 => some authorities
    | _ => none
  refusal? := none
  last? := none

def newTicket : ExtensionRules where
  place := "NewSessionTicketExtensions"
  body? := fun
    | 42 => some (skip (plain 4))
    | _ => none
  refusal? := none
  last? := none

end ExtensionRules

end TokenFeedback
