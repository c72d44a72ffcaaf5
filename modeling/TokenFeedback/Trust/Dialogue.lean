import TokenFeedback.Trust.Hello
import TokenFeedback.Trust.Reply

/-!
# Dialogues

How a client follows a peer that says what it has to say without listening, and then hangs up. It
gets nowhere: sooner or later the peer breaks a rule, or it is gone.

* `Turn`: what a client waits for.
* `TlsClient.hear`: what a message makes of a turn.
* `Dialogue.hear`: what a record makes of a dialogue. Handshake messages may be spread over records,
  but nothing else may come in between.
* `TlsClient.faultOf`: the fault of all that a peer sends.
-/

namespace TokenFeedback

/-- The server's part of a key exchange of version 1.2, and the scheme by which it is signed. -/
structure KeyExchange where
  group : Nat
  key : Bytes
  scheme : Nat
  deriving Repr, DecidableEq

def KeyExchange.ofBody? (body : Bytes) : Option KeyExchange :=
  let reader : Wire KeyExchange := do
    if (← Wire.number 1 "ECCurveType") ≠ 3 then Wire.fail (.other "UnsupportedCurveType")
    let group ← Wire.number 2 "NamedGroup"
    let key ← Wire.filledRun 1
    let scheme ← Message.signature
    Wire.ending "ServerKeyExchange"
    return ⟨group, key, scheme⟩
  (reader.run' body).toOption

/-- What a server of version 1.2 said before its certificate. -/
structure Classic where
  signer : Signer
  tellsStatus : Bool
  handsTicket : Bool
  deriving Repr, DecidableEq

/-- What a client waits for. -/
inductive Turn where
  | hello
  | certificate (s : Classic)
  | status (s : Classic) (chain : List Bytes)
  | keyExchange (s : Classic) (chain : List Bytes)
  | request (s : Classic) (chain : List Bytes) (x : KeyExchange)
  | done (s : Classic) (chain : List Bytes) (x : KeyExchange)
  | ticket
  | change
  /-- The end of a handshake of version 1.2, which is encrypted. -/
  | finish
  /-- All that follows the hello of version 1.3, which is encrypted. -/
  | extensions
  deriving Repr, DecidableEq

/-- The messages that a client waits for. -/
def Turn.expected (modern : Bool) : Turn → List UInt8
  | .hello => if modern then [2, 6] else [2]
  | .certificate _ => [11]
  | .status _ _ => [12, 22]
  | .keyExchange _ _ => [12]
  | .request _ _ _ => [14]
  | .done _ _ _ => [14]
  | .ticket => [4]
  | .change => []
  | .finish => [20]
  | .extensions => [8]

/-- Has the client something to say that goes before its wait? -/
def Turn.hasAnswer : Turn → Bool
  | .ticket => true
  | .change => true
  | .finish => true
  | .extensions => true
  | _ => false

/-- The sort of records that a client waits for. -/
def Turn.expectedRecords : Turn → String
  | .change => "ChangeCipherSpec"
  | _ => "Handshake"

namespace TlsClient

/-- What the end of a server's part makes of its parts. First comes the trust in the certificate,
then the kind of its key, and then the key exchange. -/
def conclude (c : TlsClient) (aligned : Bool) (s : Classic) (chain : List Bytes) (x : KeyExchange) :
    Except HandshakeFault Turn :=
  if !aligned then .error (.misbehaved "KeyEpochWithPendingFragment")
  else
    match chain with
    | [] => .error .noCertificate
    | certificate :: _ =>
      if c.verifier ≠ .anyone then
        match c.verifier.vouch certificate with
        | .error d => .error (.distrusted d)
        | .ok _ => .error (.distrusted .badSignature)
      else if !s.signer.signs x.scheme then .error (.misbehaved "SignedKxWithWrongAlgorithm")
      else
        match KeyGroup.ofCode? x.group with
        | none => .error (.misbehaved "SelectedUnofferedKxGroup")
        | some group =>
          if !group.accepts x.key then .error (.misbehaved "InvalidKeyShare")
          else .ok (if s.handsTicket then .ticket else .change)

/-- What a message makes of a turn; `aligned` says that no part of a further message is there. -/
def hear (c : TlsClient) (aligned : Bool) (turn : Turn) (m : Message) :
    Except HandshakeFault Turn :=
  match turn, m with
  | .hello, .serverHello h => do
    match ← c.accept aligned h with
    | .modern => return .extensions
    | .classic signer tellsStatus handsTicket =>
      return .certificate ⟨signer, tellsStatus, handsTicket⟩
  | .certificate s, .certificates chain =>
    .ok (if s.tellsStatus then .status s chain else .keyExchange s chain)
  | .status s chain, .certificateStatus => .ok (.keyExchange s chain)
  | .status s chain, .keyExchange body => exchange s chain body
  | .keyExchange s chain, .keyExchange body => exchange s chain body
  | .request s chain x, .certificateRequest => .ok (.done s chain x)
  | .request s chain x, .helloDone => c.conclude aligned s chain x
  | .done s chain x, .helloDone => c.conclude aligned s chain x
  | .ticket, .newTicket => .ok .change
  | .extensions, .encryptedExtensions => .ok .extensions
  | turn, m =>
    match m, turn.expected (c.speaks .v13) with
    | .retryRequest es, [2, 6] => .error (retryFault aligned es)
    | _, [] => .error (.unexpected "Handshake" turn.expectedRecords)
    | _, sorts => .error (.outOfTurn (Message.sortName m.sort) (sorts.map Message.sortName))
where
  exchange (s : Classic) (chain : List Bytes) (body : Bytes) : Except HandshakeFault Turn :=
    match KeyExchange.ofBody? body with
    | some x => .ok (.request s chain x)
    | none => .error (.corrupt (.other "MissingKeyExchange"))

end TlsClient

/-- The length of a handshake message without its front, which is a sort and that length. -/
def messageSize (input : Bytes) : Nat := ofBigEndian ((input.drop 1).take 3)

/-- Whole messages, each as its sort and its body, and the bytes of one that is not all there. -/
def splitMessages (input : Bytes) : List (UInt8 × Bytes) × Bytes :=
  match input with
  | [] => ([], [])
  | sort :: rest =>
    let n := messageSize (sort :: rest)
    if holds (sort :: rest) (4 + n) then
      let (messages, left) := splitMessages (rest.drop (3 + n))
      ((sort, (rest.drop 3).take n) :: messages, left)
    else ([], sort :: rest)
termination_by input.length
decreasing_by
  simp only [List.length_drop, List.length_cons]
  omega

/-- Messages are not longer than this. -/
def messageLimit : Nat := 65535

/-- How far a client has followed a peer. -/
structure Dialogue where
  turn : Turn
  warnings : Nat
  /-- The changes of cipher that mean nothing in version 1.3. -/
  changes : Nat
  /-- The bytes of a message that is not all there, and the version of the first record of them. -/
  pending : Bytes
  version : Nat

namespace Dialogue

def start : Dialogue := ⟨.hello, 0, 0, [], 0⟩

/-- The warnings that a client puts up with. -/
def warningLimit : Nat := 4

/-- The changes of cipher that a client of version 1.3 puts up with. -/
def changeLimit : Nat := 2

/-- Can a record be read at this turn? Once the keys have changed, what the peer sends in the clear
is not what it should be. In version 1.3 alerts may still be in the clear. -/
def isReadable (turn : Turn) (sort : UInt8) (bytes : Bytes) : Bool :=
  match turn with
  | .finish => sort == Reply.changeOfCipher
  | .extensions =>
    sort == Reply.changeOfCipher || (sort == Reply.alert && !holds bytes 3)
  | _ => true

/-- Hears messages one by one. -/
def hearMessages (c : TlsClient) (modern aligned : Bool) (turn : Turn) :
    List (UInt8 × Bytes) → Except HandshakeFault Turn
  | [] => .ok turn
  | (sort, bytes) :: rest =>
    match Message.read modern sort bytes with
    | .error e => .error (.corrupt e)
    | .ok m => do hearMessages c modern aligned (← c.hear aligned turn m) rest

/-- Hears a record of handshake messages. -/
def hearHandshake (c : TlsClient) (t : Dialogue) (version : Nat) (bytes : Bytes) :
    Except HandshakeFault Dialogue :=
  let version := if t.pending.isEmpty then version else t.version
  let (messages, left) := splitMessages (t.pending ++ bytes)
  if holds left 4 ∧ messageLimit < messageSize left then
    .error (.corrupt (.other "HandshakePayloadTooLarge"))
  else do
    let turn ← hearMessages c (version = 0x0304) left.isEmpty t.turn messages
    return { t with turn := turn, pending := left, version := version }

/-- Hears a warning. In version 1.3 only one sort of them is a mere warning. -/
def hearWarning (t : Dialogue) (code : UInt8) : Except HandshakeFault Dialogue :=
  if warningLimit ≤ t.warnings then .error (.misbehaved "TooManyWarningAlertsReceived")
  else if t.turn = .extensions ∧ Reply.alertName code ≠ "UserCanceled" then
    .error (.alert (Reply.alertName code))
  else .ok { t with warnings := t.warnings + 1 }

/-- Hears a change of cipher that means nothing. -/
def hearChange (t : Dialogue) (bytes : Bytes) : Except HandshakeFault Dialogue :=
  if bytes = [1] ∧ t.changes < changeLimit then .ok { t with changes := t.changes + 1 }
  else .error (.misbehaved "IllegalMiddleboxChangeCipherSpec")

/-- Hears a record. -/
def hear (c : TlsClient) (t : Dialogue) (r : Reply.Header) (bytes : Bytes) :
    Except HandshakeFault Dialogue :=
  if !isReadable t.turn r.sort bytes then .error .undecryptable
  else if !t.pending.isEmpty ∧ r.sort ≠ Reply.handshake then
    .error (.misbehaved "MessageInterleavedWithHandshakeMessage")
  else if r.sort = Reply.handshake then t.hearHandshake c r.version bytes
  else if r.sort = Reply.changeOfCipher ∧ t.turn = .extensions then t.hearChange bytes
  else do
    match ← Reply.content r.sort bytes with
    | .alert code => throw (.alert (Reply.alertName code))
    | .warning code => t.hearWarning code
    | .changeOfCipher =>
      if t.turn = .change then return { t with turn := .finish }
      throw (.unexpected "ChangeCipherSpec" t.turn.expectedRecords)
    | .applicationData => throw (.unexpected "ApplicationData" t.turn.expectedRecords)

/-- The fault when nothing more comes. -/
def ending (t : Dialogue) : HandshakeFault := if t.turn.hasAnswer then .unanswerable else .hungUp

/-- The fault of the rest of what a peer sends. -/
def faultOf (c : TlsClient) (t : Dialogue) (reply : Bytes) : HandshakeFault :=
  match Reply.header reply with
  | .error f => f
  | .ok none => t.ending
  | .ok (some r) =>
    if _h : holds reply (5 + r.size) = true then
      match t.hear c r ((reply.drop 5).take r.size) with
      | .error f => f
      | .ok t => faultOf c t (reply.drop (5 + r.size))
    else t.ending
termination_by reply.length
decreasing_by
  have := (holds_iff _ _).1 _h
  simp only [List.length_drop]
  omega

end Dialogue

/-- The fault of all that a peer sends who does not listen. -/
def TlsClient.faultOf (c : TlsClient) (reply : Bytes) : HandshakeFault :=
  Dialogue.start.faultOf c reply

end TokenFeedback
