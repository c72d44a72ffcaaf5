import TokenFeedback.Bytes
import TokenFeedback.Calendar
import TokenFeedback.Text.Outline

/-!
# Expired-token records

A record says that the application with this device token was gone at this time. On the wire it
is the time as four bytes, the length of the token as two, and the token.

* `Record.ofWire`: a record as it arrives, to the whole second.
* `Record.encode`, `encodeAll`: the wire form, or why there is none.
* `Record.write`, `Record.appendTo`: the wire form written at the end of a buffer.
* `Record.display`, `Record.debugText`: the record as text.
-/

namespace TokenFeedback

/-- A device token and the time at which it was found expired. -/
structure Record where
  token : Bytes
  expiration : Timestamp
  deriving DecidableEq

/-- The longest token that a record can carry. -/
def maxTokenLength : Nat := 65535

/-- Why a record has no wire form. -/
inductive EncodeError where
  | tokenTooLong (length : Nat)
  | expirationOutOfRange (secs : Int)
  deriving Repr, DecidableEq

def EncodeError.message : EncodeError → String
  | .tokenTooLong n => s!"token length {n} exceeds maximum of {maxTokenLength} bytes"
  | .expirationOutOfRange s =>
    s!"expiration timestamp {s} does not fit in an unsigned 32-bit field"

/-- Writing at the end of a buffer. What a writer has written before it gives up stays there. -/
abbrev Writer := ExceptT EncodeError (StateM Bytes)

def Writer.put (bytes : Bytes) : Writer Unit := modify (· ++ bytes)

namespace Record

def ofWire (token : Bytes) (expiration : UInt32) : Record :=
  ⟨token, .ofWire expiration⟩

/-- The expiration in seconds since 1970, rounded down. -/
def timestamp (r : Record) : Int := r.expiration.secs

/-- The expiration as the wire carries it. -/
def wireExpiration (r : Record) : Except EncodeError Nat :=
  if 0 ≤ r.timestamp ∧ r.timestamp < 4294967296 then .ok r.timestamp.toNat
  else .error (.expirationOutOfRange r.timestamp)

/-- The count of bytes of the wire form. -/
def encodedLength (r : Record) : Nat := 4 + 2 + r.token.length

/-- The wire form. A token that is too long is reported before a time out of range. -/
def encode (r : Record) : Except EncodeError Bytes := do
  if r.token.length > maxTokenLength then throw (.tokenTooLong r.token.length)
  let secs ← r.wireExpiration
  return bigEndian 4 secs ++ bigEndian 2 r.token.length ++ r.token

/-- Writes the fields of the wire form one after another. What is at fault is found before the
first of them. -/
def write (r : Record) : Writer Unit := do
  if r.token.length > maxTokenLength then throw (.tokenTooLong r.token.length)
  let secs ← r.wireExpiration
  Writer.put (bigEndian 4 secs)
  Writer.put (bigEndian 2 r.token.length)
  Writer.put r.token

/-- Writes a record at the end of a buffer: the buffer, and why the writer gave up if it did. -/
def appendTo (buffer : Bytes) (r : Record) : Bytes × Option EncodeError :=
  match r.write.run.run buffer with
  | (.ok (), buffer') => (buffer', none)
  | (.error e, buffer') => (buffer', some e)

def tokenHex (r : Record) : String := hexText r.token

def display (r : Record) : String :=
  r.tokenHex ++ " (expired " ++ r.expiration.rfc3339 ++ ")"

def debugText (r : Record) : String :=
  Text.outline "ExpiredToken"
    [("token", Text.quoted r.tokenHex), ("expiration", r.expiration.compact)]

end Record

/-- The wire forms of the records one after another, or why the first that has none has none. -/
def encodeAll : List Record → Except EncodeError Bytes
  | [] => .ok []
  | r :: rs => do
    let bytes ← r.encode
    let rest ← encodeAll rs
    return bytes ++ rest

end TokenFeedback
