import TokenFeedback.Text.Outline
import TokenFeedback.Trust.KeyPair

/-!
# Certificates

X.509 certificates, as far as trust needs them: whether the encoding is sound, who is certified by
whom, and which public key. No signature is looked at.

* `Certificate.ofDer`: a certificate of version 3, or what is wrong with it.
* `Certificate.anchorOfDer`: a certificate that is to be trusted by itself. It may have extensions
  that nobody understands; one of version 1, which has neither version nor extensions, will do.
* `Certificate.selfSigned`: a certificate for domain names.
-/

namespace TokenFeedback

/-- What is wrong with a certificate. -/
inductive CertificateFault where
  | badEncoding
  | unsupportedVersion
  /-- The algorithm of the signature is not the one that was signed. -/
  | algorithmMismatch
  | unsupportedExtension
  | repeatedExtension
  deriving Repr, DecidableEq

namespace CertificateFault

/-- The fault's name among the faults that are seldom. -/
def name? : CertificateFault → Option String
  | .badEncoding => none
  | .unsupportedVersion => some "UnsupportedCertVersion"
  | .algorithmMismatch => some "SignatureAlgorithmMismatch"
  | .unsupportedExtension => some "UnsupportedCriticalExtension"
  | .repeatedExtension => some "ExtensionValueInvalid"

def message (f : CertificateFault) : String :=
  "invalid peer certificate: " ++
    match f.name? with
    | some name => Text.wrapped "Other" (Text.wrapped "OtherError" name)
    | none => "BadEncoding"

end CertificateFault

/-- Who certifies whom, by which algorithm, and what the certificate says of the key: its algorithm
and the key itself. All are kept as they are encoded. -/
structure Certificate where
  algorithm : Bytes
  issuer : Bytes
  subject : Bytes
  publicKey : Bytes
  deriving Repr, DecidableEq

namespace Certificate

/-- What was read; nothing is what cannot be read. -/
def readable {α : Type} : Option α → Except CertificateFault α
  | some a => .ok a
  | none => .error .badEncoding

/-- The input has to end here. -/
def ending (rest : Bytes) : Except CertificateFault Unit :=
  if rest.isEmpty then .ok () else .error .badEncoding

/-- An extension: which one, whether a reader has to understand it, and its value. -/
structure Extension where
  id : Bytes
  critical : Bool
  value : Bytes
  deriving Repr, DecidableEq

/-- Key usage, alternative names, basic constraints, name constraints, revocation lists and
extended key usage are understood. -/
def understood : List UInt8 := [15, 17, 19, 30, 31, 37]

/-- The last part of the name of an extension that is understood. -/
def Extension.number? (e : Extension) : Option UInt8 :=
  match e.id with
  | [85, 29, n] => if understood.contains n then some n else none
  | _ => none

/-- Looks through an extension when those with the given numbers were seen. The values of all but
the key usage are sequences. An extension that is not understood may have any value; if it has to be
understood, a strict reader refuses it. -/
def Extension.check (strict : Bool) (seen : List UInt8) (e : Extension) :
    Except CertificateFault (List UInt8) :=
  match e.number? with
  | some n =>
    if seen.contains n then .error .repeatedExtension
    else if n = 15 ∨ (Der.whole? Der.sequence e.value).isSome then .ok (n :: seen)
    else .error .badEncoding
  | none => if strict && e.critical then .error .unsupportedExtension else .ok seen

/-- A truth value as it is encoded. -/
def truth? : Bytes → Option Bool
  | [0] => some false
  | [255] => some true
  | _ => none

/-- The extension that an input begins with, and what follows. -/
def extension? (content : Bytes) : Option (Extension × Bytes) := do
  let (id, rest) ← Der.expect? Der.objectId content
  let (mark, rest) ← Der.optional? Der.boolean rest
  let critical ← match mark with
    | some b => truth? b
    | none => some false
  let (value, rest) ← Der.expect? Der.octetString rest
  return (⟨id, critical, value⟩, rest)

/-- Looks through a sequence of extensions. -/
def checkExtensions (strict : Bool) (seen : List UInt8) (input : Bytes) :
    Except CertificateFault Unit :=
  if input.isEmpty then .ok ()
  else
    match _h : Der.expect? Der.sequence input with
    | some (content, rest) => do
      let (e, trailer) ← readable (extension? content)
      let seen ← e.check strict seen
      ending trailer
      checkExtensions strict seen rest
    | none => .error .badEncoding
termination_by input.length
decreasing_by exact Der.length_of_expect? _h

/-- Looks through the end of a body: its extensions, if it has any. -/
def checkTrailer (strict : Bool) (rest : Bytes) : Except CertificateFault Unit :=
  if rest.isEmpty then .ok ()
  else do
    let (tagged, rest) ← readable (Der.expect? Der.context3 rest)
    let (extensions, trailer) ← readable (Der.expect? Der.sequence tagged)
    checkExtensions strict [] extensions
    ending trailer
    ending rest

/-- The parts of a signed value: what is signed, and the algorithm. -/
def signed? (der : Bytes) : Option (Bytes × Bytes) := do
  let content ← Der.whole? Der.sequence der
  let (body, rest) ← Der.expect? Der.sequence content
  let (algorithm, rest) ← Der.expect? Der.sequence rest
  let bits ← Der.whole? Der.bitString rest
  let _ ← Der.fullBits? bits
  return (body, algorithm)

/-- What follows the version at the front of a body. It has to be the third, which is written as
two. -/
def afterVersion (body : Bytes) : Except CertificateFault Bytes :=
  match Der.expect? Der.context0 body with
  | some (version, rest) =>
    match Der.expectNatural? version with
    | some (n, trailer) =>
      if 256 ≤ n then .error .badEncoding
      else if n = 2 ∧ trailer.isEmpty then .ok rest
      else .error .unsupportedVersion
    | none => .error .badEncoding
  | none => .error .unsupportedVersion

/-- A certificate of version 3. A strict reader refuses what has to be understood and is not. -/
def version3OfDer (strict : Bool) (der : Bytes) : Except CertificateFault Certificate := do
  let (body, algorithm) ← readable (signed? der)
  let rest ← afterVersion body
  let (_, rest) ← readable (Der.expect? Der.integer rest)
  let (signature, rest) ← readable (Der.expect? Der.sequence rest)
  if signature ≠ algorithm then throw .algorithmMismatch
  let (issuer, rest) ← readable (Der.expect? Der.sequence rest)
  let (_, rest) ← readable (Der.expect? Der.sequence rest)
  let (subject, rest) ← readable (Der.expect? Der.sequence rest)
  let (key, rest) ← readable (Der.expect? Der.sequence rest)
  checkTrailer strict rest
  return ⟨algorithm, issuer, subject, key⟩

/-- A certificate of version 1. -/
def version1OfDer? (der : Bytes) : Option Certificate := do
  let (body, _) ← signed? der
  let (_, rest) ← Der.expect? Der.integer body
  let (algorithm, rest) ← Der.expect? Der.sequence rest
  let (issuer, rest) ← Der.expect? Der.sequence rest
  let (_, rest) ← Der.expect? Der.sequence rest
  let (subject, rest) ← Der.expect? Der.sequence rest
  let key ← Der.whole? Der.sequence rest
  return ⟨algorithm, issuer, subject, key⟩

/-- A certificate that someone shows. -/
def ofDer (der : Bytes) : Except CertificateFault Certificate := version3OfDer true der

/-- A certificate that is to be trusted by itself. -/
def anchorOfDer (der : Bytes) : Except CertificateFault Certificate :=
  match version3OfDer false der with
  | .error .unsupportedVersion => readable (version1OfDer? der)
  | answer => answer

/-- The name of the algorithm of the signatures that are made. -/
def signatureAlgorithm : Bytes := Der.write Der.objectId [42, 134, 72, 206, 61, 4, 3, 2]

/-- The common name of those who certify themselves. -/
def commonName : Bytes :=
  Der.write Der.set (Der.write Der.sequence
    (Der.write Der.objectId [85, 4, 3] ++ Der.write Der.utf8Text
      (textBytes "rcgen self signed cert")))

/-- The key of those who certify themselves. It stands for a key that nobody else has. -/
def ownKey : Bytes := 4 :: List.replicate 32 0x5a ++ List.replicate 32 0xa5

/-- A certificate for the given domain names. What it does not say of them is the same in all such
certificates. -/
def selfSigned (names : List String) : Bytes :=
  let algorithm := Der.write Der.sequence signatureAlgorithm
  let name := Der.write Der.sequence commonName
  let validity := Der.write Der.sequence
    (Der.write Der.utcTime (textBytes "750101000000Z") ++
      Der.write Der.utcTime (textBytes "491231235959Z"))
  let key := Der.write Der.sequence
    (Der.write Der.sequence Curve.p256.algorithm ++ Der.writeBits ownKey)
  let alternatives := Der.write Der.sequence
    (names.flatMap fun n => Der.write 0x82 (textBytes n))
  let extensions := Der.write Der.context3 (Der.write Der.sequence
    (Der.write Der.sequence
      (Der.write Der.objectId [85, 29, 17] ++ Der.write Der.octetString alternatives)))
  let body := Der.write Der.sequence
    (Der.write Der.context0 (Der.writeNatural 2) ++ Der.writeNatural 1 ++ algorithm ++ name ++
      validity ++ name ++ key ++ extensions)
  Der.write Der.sequence (body ++ algorithm ++ Der.writeBits [4])

end Certificate

end TokenFeedback
