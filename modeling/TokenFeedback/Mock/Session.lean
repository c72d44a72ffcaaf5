import TokenFeedback.Record
import TokenFeedback.Span

/-!
# Scripted sessions

What a server that stands in for the service will send in one session: the chunks, the pause
between them, and how the session ends.

* `MockSession.raw`, `MockSession.ofRecords`: everything in one chunk.
* `MockSession.splitAt`, `MockSession.oneByteAtATime`: the same bytes in other chunks.
-/

namespace TokenFeedback

/-- How a scripted session ends. -/
inductive MockEnding where
  /-- The server says good-bye. -/
  | close
  /-- The server stays, and is silent. -/
  | idle
  /-- The server is gone without a word. -/
  | abort
  deriving Repr, DecidableEq

def MockEnding.name : MockEnding → String
  | .close => "Close"
  | .idle => "Idle"
  | .abort => "Abort"

structure MockSession where
  chunks : List Bytes
  pause : Span
  ending : MockEnding
  deriving Repr, DecidableEq

namespace MockSession

/-- Sends nothing and says good-bye. -/
def empty : MockSession := ⟨[], .zero, .close⟩

/-- Sends all bytes in one chunk, if there are any. -/
def raw (bytes : Bytes) : MockSession :=
  { empty with chunks := if bytes.isEmpty then [] else [bytes] }

def ofRecords (records : List Record) : Except EncodeError MockSession :=
  (encodeAll records).map raw

/-- All bytes of the session. A single chunk is handed out as it is. -/
def payload (s : MockSession) : Bytes :=
  match s.chunks with
  | [] => []
  | [chunk] => chunk
  | chunks => chunks.flatten

theorem payload_eq_flatten (s : MockSession) : s.payload = s.chunks.flatten := by
  rw [payload]
  split
  · next h =>
    rw [h]
    rfl
  · next chunk h =>
    rw [h]
    exact List.flatten_singleton.symm
  · rfl

/-- The bytes of a payload between the cuts, which are in order; `start` bytes of it are gone. -/
def between (start : Nat) (payload : Bytes) : List Nat → List Bytes
  | [] => if payload.isEmpty then [] else [payload]
  | cut :: cuts => payload.take (cut - start) :: between cut (payload.drop (cut - start)) cuts

/-- The offsets strictly inside a run of so many bytes, in order, each once. -/
def innerCuts (size : Nat) (offsets : List Nat) : List Nat :=
  ((offsets.filter fun o => 0 < o && o < size).mergeSort (· ≤ ·)).eraseReps

/-- Cuts the payload at the given offsets. -/
def splitAt (s : MockSession) (offsets : List Nat) : MockSession :=
  { s with chunks := between 0 s.payload (innerCuts s.payload.length offsets) }

def oneByteAtATime (s : MockSession) : MockSession :=
  { s with chunks := s.payload.map ([·]) }

def debugText (s : MockSession) : String :=
  Text.outline "MockSession"
    [("chunks", Text.listing (s.chunks.map Text.quotedBytes)), ("chunk_delay", s.pause.text),
      ("ending", s.ending.name)]

def withPause (s : MockSession) (pause : Span) : MockSession := { s with pause := pause }

def thenIdle (s : MockSession) : MockSession := { s with ending := .idle }

def thenAbort (s : MockSession) : MockSession := { s with ending := .abort }

end MockSession

end TokenFeedback
