import TokenFeedback.Trust.Extension

/-!
# Handshake messages

The messages by which peers come to an agreement. Of most of them only the form is looked at.

* `Message`: what a client has to know of a message.
* `Message.read`: reads the body of a message. Some sorts have another form in version 1.3.
* `Message.sortName`: the name of a sort of messages.
-/

namespace TokenFeedback

/-- The answer of a server to a client. -/
structure ServerHello where
  version : Nat
  random : Bytes
  suite : Nat
  compression : Nat
  extensions : Extensions
  deriving Repr, DecidableEq

inductive Message where
  | serverHello (h : ServerHello)
  /-- The server wants another greeting. -/
  | retryRequest (extensions : Extensions)
  | encryptedExtensions
  /-- The server's certificates, its own first. -/
  | certificates (chain : List Bytes)
  | certificateStatus
  | keyExchange (body : Bytes)
  | certificateRequest
  | helloDone
  | newTicket
  /-- A message of a sort that no client of version 1.2 expects. -/
  | other (sort : UInt8)
  deriving Repr, DecidableEq

namespace Message

open Wire ExtensionRules

def sortNames : List (UInt8 × String) :=
  [(0, "HelloRequest"), (1, "ClientHello"), (2, "ServerHello"), (3, "HelloVerifyRequest"),
    (4, "NewSessionTicket"), (5, "EndOfEarlyData"), (6, "HelloRetryRequest"),
    (8, "EncryptedExtensions"), (11, "Certificate"), (12, "ServerKeyExchange"),
    (13, "CertificateRequest"), (14, "ServerHelloDone"), (15, "CertificateVerify"),
    (16, "ClientKeyExchange"), (20, "Finished"), (21, "CertificateURL"),
    (22, "CertificateStatus"), (24, "KeyUpdate"), (25, "CompressedCertificate"),
    (254, "MessageHash")]

def sortName (sort : UInt8) : String :=
  match sortNames.lookup sort with
  | some name => name
  | none => Text.wrapped "HandshakeType" ("0x" ++ Text.hexNumber sort.toNat)

def sort : Message → UInt8
  | .serverHello _ => 2
  | .newTicket => 4
  | .retryRequest _ => 6
  | .encryptedExtensions => 8
  | .certificates _ => 11
  | .keyExchange _ => 12
  | .certificateRequest => 13
  | .helloDone => 14
  | .certificateStatus => 22
  | .other sort => sort

/-- The random bytes that make a server's hello the wish for another greeting. -/
def retryRandom : Bytes :=
  [0xcf, 0x21, 0xad, 0x74, 0xe5, 0x9a, 0x61, 0x11, 0xbe, 0x1d, 0x8c, 0x02, 0x1e, 0x65, 0xb8, 0x91,
    0xc2, 0xa2, 0x11, 0x16, 0x7a, 0xbb, 0x8c, 0x5e, 0x07, 0x9e, 0x09, 0xe2, 0xc8, 0xa8, 0x33, 0x9c]

/-- The name of a session has 32 bytes at most. -/
def sessionName : Wire Unit := do
  let n ← plain 1
  if 32 < n then fail (.trailing "SessionID")
  skip (chunk n "SessionID")

def clientHelloBody : Wire Unit := do
  let _ ← number 2 "ProtocolVersion"
  let _ ← chunk 32 "Random"
  sessionName
  let _ ← filledList 2 "CipherSuites" (number 2 "CipherSuite")
  let _ ← filledList 1 "Compressions" (number 1 "Compression")
  if (← get).isEmpty then return ()
  let _ ← extensions ExtensionRules.clientHello
  ending "ClientHelloPayload"

/-- A server's hello, or its wish for another greeting. -/
def serverHelloBody : Wire Message := do
  let version ← number 2 "ProtocolVersion"
  let random ← chunk 32 "Random"
  sessionName
  let suite ← number 2 "CipherSuite"
  let compression ← number 1 "Compression"
  if random = retryRandom then
    if compression ≠ 0 then fail (.other "UnsupportedCompression")
    return .retryRequest (← extensions ExtensionRules.retryRequest)
  else
    let bare := (← get).isEmpty
    let es ← if bare then pure [] else extensions ExtensionRules.serverHello
    ending "ServerHelloPayload"
    return .serverHello ⟨version, random, suite, compression, es⟩

/-- Certificates are not longer than this, all together. -/
def certificateLimit : Nat := 65536

def certificateLength : Wire Nat := do
  let n ← plain 3
  if certificateLimit < n then fail (.other "CertificatePayloadTooLarge") else return n

/-- The body of a certificate message of version 1.3. -/
def newCertificatesBody : Wire Unit := do
  let _ ← run 1
  skip (list certificateLength do
    let _ ← run 3
    extensions ExtensionRules.certificate)

def certificateRequestBody : Wire Unit := do
  let _ ← filledList 1 "ClientCertificateTypes" (number 1 "ClientCertificateType")
  schemes
  authorities

/-- The body of a ticket of version 1.3. -/
def newTicketBody : Wire Unit := do
  let _ ← plain 4
  let _ ← plain 4
  let _ ← run 1
  within (← positive 2 (.other "EmptyTicketValue")) (skip rest)
  skip (extensions ExtensionRules.newTicket)

def compressedCertificateBody : Wire Unit := do
  let _ ← number 2 "CertificateCompressionAlgorithm"
  let _ ← plain 3
  skip (run 3)

/-- A signature and the scheme by which it was made. -/
def signature : Wire Nat := do
  let scheme ← number 2 "SignatureScheme"
  let _ ← run 2
  return scheme

/-- The body of a message of the given sort, in the form of version 1.3 if it is `modern`. -/
def body (modern : Bool) (sort : UInt8) : Wire Message := do
  if sort = 1 then
    clientHelloBody
    return .other sort
  else if sort = 2 then serverHelloBody
  else if sort = 4 then
    if modern then
      newTicketBody
      return .other sort
    else
      let _ ← plain 4
      let _ ← run 2
      return .newTicket
  else if sort = 5 then
    ending "EndOfEarlyData"
    return .other sort
  else if sort = 6 ∨ sort = 254 then fail (.unsendable (sortName sort))
  else if sort = 8 then
    let _ ← extensions ExtensionRules.serverHello
    return .encryptedExtensions
  else if sort = 11 then
    if modern then
      newCertificatesBody
      return .other sort
    else return .certificates (← list certificateLength (run 3))
  else if sort = 12 then return .keyExchange (← rest)
  else if sort = 13 then
    if modern then
      let _ ← run 1
      let _ ← extensions ExtensionRules.certificateRequest
      return .other sort
    else
      certificateRequestBody
      return .certificateRequest
  else if sort = 14 then
    ending "ServerHelloDone"
    return .helloDone
  else if sort = 15 then
    let _ ← signature
    return .other sort
  else if sort = 22 then
    ExtensionRules.certificateStatus
    return .certificateStatus
  else if sort = 24 then
    let _ ← number 1 "KeyUpdateRequest"
    return .other sort
  else if sort = 25 then
    compressedCertificateBody
    return .other sort
  else
    let _ ← rest
    return .other sort

/-- Reads the body of a message. -/
def read (modern : Bool) (sort : UInt8) (bytes : Bytes) : Except Corruption Message :=
  (do
    let m ← body modern sort
    ending "HandshakeMessagePayload"
    return m : Wire Message).run' bytes

end Message

end TokenFeedback
