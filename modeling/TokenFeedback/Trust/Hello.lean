import TokenFeedback.Edwards
import TokenFeedback.Trust.Fault
import TokenFeedback.Trust.Message

/-!
# Hellos

What a client makes of a server's hello, by which the server picks from what the client offers.

* `TlsClient.version`: the version that a hello picks.
* `TlsClient.accept`: the pick of a hello, or what is wrong with it.
* `TlsClient.retryFault`: what is wrong with the wish for another greeting. Such a wish repeats a
  name that the client made up, so that nobody who has not read the greeting gets it right.
-/

namespace TokenFeedback

/-- Groups in which keys are agreed on. -/
inductive KeyGroup where
  | x25519
  | curve (c : Curve)

namespace KeyGroup

def ofCode? : Nat → Option KeyGroup
  | 0x1d => some .x25519
  | 0x17 => some (.curve .p256)
  | 0x18 => some (.curve .p384)
  | _ => none

/-- The numbers that every multiple of eight takes to zero. -/
def smallOrder : List Nat :=
  [0, 1, Edwards.p - 1,
    325606250916557431795983626356110631294008115727848805560023387167927233504,
    39382357235489614581723060781553021112529911719440698176882885853963445705823]

/-- A public key that gives no secret away: a number that is not of small order, or a point on the
curve. -/
def accepts : KeyGroup → Bytes → Bool
  | .x25519, key =>
    let top := 0x8000000000000000000000000000000000000000000000000000000000000000
    key.length == 32 && !smallOrder.contains (Edwards.ofLittleEndian key % top % Edwards.p)
  | .curve c, key =>
    match key with
    | 4 :: point =>
      let x := ofBigEndian (point.take c.width)
      let y := ofBigEndian (point.drop c.width)
      point.length == 2 * c.width && x < c.p && y < c.p && c.contains x y
    | _ => false

end KeyGroup

/-- Kinds of keys that sign in version 1.2. -/
inductive Signer where
  | rsa
  | curve
  deriving Repr, DecidableEq

/-- Does a key of this kind sign by the scheme? -/
def Signer.signs : Signer → Nat → Bool
  | .rsa, scheme =>
    [0x0201, 0x0401, 0x0501, 0x0601, 0x0804, 0x0805, 0x0806].contains scheme
  | .curve, scheme => [0x0203, 0x0403, 0x0503, 0x0603, 0x0807].contains scheme

/-- The suites that are offered, with the kind of keys that sign if they are of version 1.2. -/
def suites : List (Nat × Option Signer) :=
  [(0x1302, none), (0x1301, none), (0x1303, none), (0xc02c, some .curve), (0xc02b, some .curve),
    (0xcca9, some .curve), (0xc030, some .rsa), (0xc02f, some .rsa), (0xcca8, some .rsa)]

/-- What a server picks. -/
inductive Pick where
  /-- Version 1.3. -/
  | modern
  /-- Version 1.2. The server may tell the state of its certificate, and may hand out a ticket. -/
  | classic (signer : Signer) (tellsStatus handsTicket : Bool)
  deriving Repr, DecidableEq

/-- Who shakes hands. -/
structure TlsClient where
  versions : List TlsVersion
  /-- Is the server known by a domain name? -/
  namesDomain : Bool
  verifier : Verifier

def Connector.client (c : Connector) (name : ServerName) : TlsClient :=
  ⟨c.versions, match name with | .domain _ => true | _ => false, c.verifier⟩

namespace TlsClient

def speaks (c : TlsClient) (v : TlsVersion) : Bool := c.versions.contains v

/-- The extensions of the client's greeting. -/
def extensions (c : TlsClient) : List Nat :=
  [5, 10, 11, 13, 23, 43] ++ (if c.namesDomain then [0] else []) ++
    (if c.speaks .v13 then [45, 51] else []) ++ (if c.speaks .v12 then [35] else [])

/-- The extension that a server may have in its hello without being asked. -/
def unasked : Nat := 0xff01

/-- The version that a hello picks. -/
def version (c : TlsClient) (h : ServerHello) : Except HandshakeFault TlsVersion :=
  let selected := (h.extensions.lookup 43).map ofBigEndian
  let number := if h.version = 0x0303 then selected.getD h.version else h.version
  if number = 0x0304 ∧ c.speaks .v13 then .ok .v13
  else if number = 0x0303 ∧ c.speaks .v12 then
    if selected.isSome then .error (.misbehaved "SelectedTls12UsingTls13VersionExtension")
    else .ok .v12
  else if number = 0x0304 ∨ number = 0x0303 then
    .error (.incompatible "ServerTlsVersionIsDisabledByOurConfig")
  else .error (.incompatible "ServerDoesNotSupportTls12Or13")

/-- Extensions that belong behind the change to encryption. -/
def sealedExtensions : List Nat := [0, 5, 11, 23, 35, unasked]

/-- The group of the key that is offered. -/
def offeredGroup : Nat := 0x1d

/-- Looks through a hello of version 1.3. It has the server's key, and is the last message that is
not encrypted: `aligned` says that no part of another one is there. -/
def acceptModern (aligned : Bool) (h : ServerHello) : Except HandshakeFault Pick :=
  if h.extensions.any fun e => sealedExtensions.contains e.1 then
    .error (.misbehaved "UnexpectedCleartextExtension")
  else
    match h.extensions.lookup 51 with
    | none => .error (.misbehaved "MissingKeyShare")
    | some share =>
      if ofBigEndian (share.take 2) ≠ offeredGroup then
        .error (.misbehaved "WrongGroupForKeyShare")
      else if !KeyGroup.accepts .x25519 (share.drop 4) then .error (.misbehaved "InvalidKeyShare")
      else if !aligned then .error (.misbehaved "KeyEpochWithPendingFragment")
      else .ok .modern

/-- How the random bytes of a server end that speaks version 1.3 and was not asked for it. -/
def downgradeMark : Bytes := [0x44, 0x4f, 0x57, 0x4e, 0x47, 0x52, 0x44, 0x01]

def acceptClassic (c : TlsClient) (signer : Signer) (h : ServerHello) : Except HandshakeFault Pick :=
  if c.speaks .v13 ∧ h.random.drop 24 = downgradeMark then
    .error (.misbehaved "AttemptedDowngradeToTls12WhenTls13IsSupported")
  else
    .ok (.classic signer (h.extensions.lookup 5).isSome (h.extensions.lookup 35).isSome)

/-- The pick of a hello. -/
def accept (c : TlsClient) (aligned : Bool) (h : ServerHello) : Except HandshakeFault Pick := do
  let version ← c.version h
  if h.compression ≠ 0 then throw (.misbehaved "SelectedUnofferedCompression")
  if h.extensions.any fun e => e.1 ≠ unasked ∧ !c.extensions.contains e.1 then
    throw (.misbehaved "UnsolicitedServerHelloExtension")
  if ((h.extensions.lookup 11).map fun formats => !(formats.drop 1).contains 0).getD false then
    throw (.misbehaved "ServerHelloMustOfferUncompressedEcPoints")
  match suites.lookup h.suite, version with
  | none, _ => throw (.misbehaved "SelectedUnofferedCipherSuite")
  | some none, .v13 => acceptModern aligned h
  | some (some signer), .v12 => c.acceptClassic signer h
  | some _, _ => throw (.misbehaved "SelectedUnusableCipherSuiteForVersion")

/-- What is wrong with the wish for another greeting. -/
def retryFault (aligned : Bool) (es : Extensions) : HandshakeFault :=
  if !aligned then .misbehaved "KeyEpochWithPendingFragment"
  else
    match es.lookup 44, es.lookup 51 with
    | none, none => .misbehaved "IllegalHelloRetryRequestWithNoChanges"
    | none, some group =>
      if ofBigEndian group = offeredGroup then
        .misbehaved "IllegalHelloRetryRequestWithOfferedGroup"
      else .misbehaved "IllegalHelloRetryRequestWithWrongSessionId"
    | some _, _ => .misbehaved "IllegalHelloRetryRequestWithWrongSessionId"

end TlsClient

end TokenFeedback
