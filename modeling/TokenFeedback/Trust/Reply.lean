import TokenFeedback.Trust.Fault

/-!
# What a peer sends

Whatever peers send comes in records: a type, a version, a length and a content.

* `Reply.header`: the header of a record.
* `Reply.content`: what a record brings that is not a part of a handshake message.
* `Reply.alertName`: the name of a reason that a peer gives.
-/

namespace TokenFeedback.Reply

/-- The reasons that peers may give. -/
def alertNames : List (UInt8 × String) :=
  [(0, "CloseNotify"), (10, "UnexpectedMessage"), (20, "BadRecordMac"),
    (21, "DecryptionFailed"), (22, "RecordOverflow"), (30, "DecompressionFailure"),
    (40, "HandshakeFailure"), (41, "NoCertificate"), (42, "BadCertificate"),
    (43, "UnsupportedCertificate"), (44, "CertificateRevoked"), (45, "CertificateExpired"),
    (46, "CertificateUnknown"), (47, "IllegalParameter"), (48, "UnknownCA"),
    (49, "AccessDenied"), (50, "DecodeError"), (51, "DecryptError"), (60, "ExportRestriction"),
    (70, "ProtocolVersion"), (71, "InsufficientSecurity"), (80, "InternalError"),
    (86, "InappropriateFallback"), (90, "UserCanceled"), (100, "NoRenegotiation"),
    (109, "MissingExtension"), (110, "UnsupportedExtension"), (111, "CertificateUnobtainable"),
    (112, "UnrecognisedName"), (113, "BadCertificateStatusResponse"),
    (114, "BadCertificateHashValue"), (115, "UnknownPSKIdentity"), (116, "CertificateRequired"),
    (120, "NoApplicationProtocol"), (121, "EncryptedClientHelloRequired")]

def alertName (code : UInt8) : String :=
  match alertNames.lookup code with
  | some name => name
  | none => "AlertDescription(0x" ++ Text.hexNumber code.toNat ++ ")"

def changeOfCipher : UInt8 := 20
def alert : UInt8 := 21
def handshake : UInt8 := 22
def applicationData : UInt8 := 23

/-- The versions outside of the family 3 that have a name all the same. -/
def namedVersions : List Nat := [0x0200, 0xfeff, 0xfefd, 0xfefc]

def isVersion (n : Nat) : Bool := n / 256 == 3 || namedVersions.contains n

/-- Contents are shorter than this. -/
def sizeLimit : Nat := 18432

def corrupt {α : Type} (name : String) : Except HandshakeFault α :=
  .error (.corrupt (.other name))

/-- The front of a record. -/
structure Header where
  sort : UInt8
  version : Nat
  size : Nat
  deriving Repr, DecidableEq

/-- The header of the record that an input begins with: nothing if the header is not all there. A
wrong type or version is noticed before the rest of the header is there. -/
def header : Bytes → Except HandshakeFault (Option Header)
  | [] => .ok none
  | sort :: rest =>
    if sort < 20 ∨ 24 < sort then corrupt "InvalidContentType"
    else
      match rest with
      | v :: w :: rest =>
        let version := v.toNat * 256 + w.toNat
        if !isVersion version then corrupt "UnknownProtocolVersion"
        else
          match rest with
          | a :: b :: _ =>
            let n := a.toNat * 256 + b.toNat
            if sort ≠ applicationData ∧ n = 0 then corrupt "InvalidEmptyPayload"
            else if sizeLimit ≤ n then corrupt "MessageTooLarge"
            else .ok (some ⟨sort, version, n⟩)
          | _ => .ok none
      | _ => .ok none

/-- What a record brings that is not a part of a handshake message. -/
inductive Content where
  /-- A reason not to go on. -/
  | alert (code : UInt8)
  | warning (code : UInt8)
  | changeOfCipher
  | applicationData
  deriving Repr, DecidableEq

def content (sort : UInt8) (bytes : Bytes) : Except HandshakeFault Content :=
  if sort = alert then
    match bytes with
    | [level, code] => .ok (if level = 1 then .warning code else .alert code)
    | [_] => .error (.corrupt (.missing "AlertDescription"))
    | _ => .error (.corrupt (.trailing "AlertMessagePayload"))
  else if sort = changeOfCipher then
    match bytes with
    | [1] => .ok .changeOfCipher
    | 1 :: _ => .error (.corrupt (.trailing "ChangeCipherSpecPayload"))
    | _ => corrupt "InvalidCcs"
  else if sort = applicationData then .ok .applicationData
  else corrupt "InvalidContentType"

end TokenFeedback.Reply
