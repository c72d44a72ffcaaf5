import TokenFeedback.Pem
import TokenFeedback.Text.Outline
import TokenFeedback.Trust.Error

/-!
# Provider identities

A push provider is known by a chain of certificates and the private key of the first one. Neither
is looked into here: a chain and a key are what their file says they are.

* `Identity.ofPem`: the identity in two PEM files, or what is wrong with the first of them that is
  at fault.
-/

namespace TokenFeedback

/-- The forms in which private keys are kept. -/
inductive KeyForm where
  | pkcs1
  | sec1
  | pkcs8
  deriving Repr, DecidableEq

structure PrivateKey where
  form : KeyForm
  der : Bytes
  deriving Repr, DecidableEq

/-- A chain of certificates, the provider's own first, and its private key. -/
structure Identity where
  chain : List Bytes
  key : PrivateKey
  deriving Repr, DecidableEq

/-- The form of the keys in the sections of a kind. -/
def Pem.Kind.keyForm? : Pem.Kind → Option KeyForm
  | .rsaPrivateKey => some .pkcs1
  | .ecPrivateKey => some .sec1
  | .privateKey => some .pkcs8
  | _ => none

namespace Identity

/-- The certificates of a file, unless something in it is at fault. -/
def certificates : List (Except Pem.Error Pem.Section) → Except Pem.Error (List Bytes)
  | [] => .ok []
  | .error e :: _ => .error e
  | .ok s :: rest => do
    let later ← certificates rest
    return if s.kind = .certificate then s.der :: later else later

/-- The first private key of a file, unless something before it is at fault. -/
def firstKey : List (Except Pem.Error Pem.Section) → Except Pem.Error PrivateKey
  | [] => .error .noItemsFound
  | .error e :: _ => .error e
  | .ok s :: rest =>
    match s.kind.keyForm? with
    | some form => .ok ⟨form, s.der⟩
    | none => firstKey rest

/-- The identity in a file of certificates and a file with a key. -/
def ofPem (certFile keyFile : Bytes) : Except TrustError Identity :=
  match certificates (Pem.sections certFile) with
  | .error e => .error (.invalidCertificate ("provider certificate: " ++ e.message))
  | .ok [] =>
    .error (.invalidCertificate "provider certificate: no CERTIFICATE block found")
  | .ok chain =>
    match firstKey (Pem.sections keyFile) with
    | .error e => .error (.invalidCertificate ("provider key: " ++ e.message))
    | .ok key => .ok ⟨chain, key⟩

/-- The identity without its contents. -/
def debugText (i : Identity) : String :=
  Text.openOutline "ProviderIdentity" [("chain_len", s!"{i.chain.length}")]

end Identity

end TokenFeedback
