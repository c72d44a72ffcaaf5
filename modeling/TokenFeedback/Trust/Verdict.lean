import TokenFeedback.Trust.Connector

/-!
# Trust in certificates

Whether someone vouches for a certificate.

* `Distrust`: why a certificate is not taken, and `Distrust.message` for people.
* `Certificate.vouched`: does one of the anchors vouch for a certificate?
* `Verifier.vouch`: reads a certificate and looks for an anchor.
-/

namespace TokenFeedback

/-- Why a certificate is not taken. -/
inductive Distrust where
  | fault (f : CertificateFault)
  | unknownIssuer
  /-- The issuer's key is for another algorithm than the signature's. -/
  | unsuitableKey (signature key : Bytes)
  | badSignature
  | tooManySignatures
  | wrongName (name : String) (names : List String)
  deriving Repr, DecidableEq

/-- How much a failure tells of the certificate. -/
def Distrust.weight : Distrust → Nat
  | .unknownIssuer => 0
  | .fault _ => 1
  | .unsuitableKey _ _ => 2
  | _ => 3

/-- Names between commas, the last behind a conjunction. -/
def enumeration : List String → String
  | [] => ""
  | [a] => a
  | [a, b] => a ++ " or " ++ b
  | a :: rest => a ++ ", " ++ enumeration rest

/-- Bytes as a list of numbers. -/
def numbers (bytes : Bytes) : String := Text.listing (bytes.map fun b => toString b.toNat)

def Distrust.message : Distrust → String
  | .fault f => f.message
  | .unknownIssuer => "invalid peer certificate: UnknownIssuer"
  | .unsuitableKey signature key =>
    "invalid peer certificate: " ++
      Text.outline "UnsupportedSignatureAlgorithmForPublicKeyContext"
        [("signature_algorithm_id", numbers signature), ("public_key_algorithm_id", numbers key)]
  | .badSignature => "invalid peer certificate: BadSignature"
  | .tooManySignatures =>
    "invalid peer certificate: " ++
      Text.wrapped "Other" (Text.wrapped "OtherError" "MaximumSignatureChecksExceeded")
  | .wrongName name names =>
    "invalid peer certificate: certificate not valid for name " ++ Text.quoted name ++
      "; certificate is " ++
      match names with
      | [] => "not valid for any names (according to its subjectAltName extension)"
      | _ => "only valid for " ++
          enumeration (names.map fun n => Text.wrapped "DnsName" (Text.quoted n))

/-- Why an anchor does not vouch for a certificate that was signed with its own key, if so. Its key
has to be one for elliptic curves. -/
def Certificate.doubt? (anchor c : Certificate) : Option Distrust :=
  match Der.expect? Der.sequence anchor.publicKey with
  | some (algorithm, rest) =>
    if ((Der.whole? Der.bitString rest).bind Der.fullBits?).isNone then some (.fault .badEncoding)
    else if algorithm ≠ Curve.p256.algorithm ∧ algorithm ≠ Curve.p384.algorithm then
      some (.unsuitableKey c.algorithm algorithm)
    else if anchor.publicKey = c.publicKey then none
    else some .badSignature
  | none => some (.fault .badEncoding)

/-- So many signatures are looked at for one certificate. -/
def signatureLimit : Nat := 100

/-- Does one of the anchors that bear the issuer's name vouch for the certificate? If none does,
the failure is the most telling one, and of several such the first. -/
def Certificate.vouched (c : Certificate) (budget : Nat) (failure : Distrust) :
    List Certificate → Except Distrust Unit
  | [] => .error failure
  | anchor :: rest =>
    if anchor.subject ≠ c.issuer then c.vouched budget failure rest
    else if budget = 0 then .error .tooManySignatures
    else
      match anchor.doubt? c with
      | none => .ok ()
      | some d =>
        c.vouched (budget - 1) (if failure.weight < d.weight then d else failure) rest

namespace Verifier

/-- The anchors of a verifier. The public roots are not known here: they vouch for nobody. -/
def anchorList : Verifier → List Certificate
  | .anchors certificates => certificates
  | _ => []

/-- Reads a certificate that was signed with its own key, and looks for an anchor that vouches for
it. -/
def vouch (v : Verifier) (certificate : Bytes) : Except Distrust Unit :=
  match Certificate.ofDer certificate with
  | .error f => .error (.fault f)
  | .ok c => c.vouched signatureLimit .unknownIssuer v.anchorList

end Verifier

end TokenFeedback
