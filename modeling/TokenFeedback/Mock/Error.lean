import TokenFeedback.IoError
import TokenFeedback.Record
import TokenFeedback.Trust.Certificate

/-!
# Failures of the stand-in

Why a stand-in for the service cannot be had.

* `certificateFor`: a certificate for domain names, which have to be ASCII.
-/

namespace TokenFeedback

inductive MockError where
  | io (error : IoError)
  | channel (reason : String)
  | certificate (reason : String)
  /-- The records of a scripted session have no wire form. -/
  | protocol (error : EncodeError)
  deriving DecidableEq

namespace MockError

def message : MockError → String
  | .io e => "IO error: " ++ e.text
  | .channel reason => "TLS error: " ++ reason
  | .certificate reason => "certificate error: " ++ reason
  | .protocol e => "protocol error: " ++ e.message

/-- A refusal of the channel for a reason of no particular sort. -/
def general (reason : String) : MockError := .channel ("unexpected error: " ++ reason)

/-- The fault of the records. -/
def inner? : MockError → Option EncodeError
  | .protocol e => some e
  | _ => none

end MockError

/-- Is the text ASCII? -/
def isAscii (s : String) : Bool := s.toList.all fun c => c.toNat < 128

/-- A certificate for the names. -/
def certificateFor (names : List String) : Except MockError Bytes :=
  match names.find? fun n => !isAscii n with
  | some n => .error (.certificate ("Invalid IA5String: '" ++ n ++ "'"))
  | none => .ok (Certificate.selfSigned names)

end TokenFeedback
