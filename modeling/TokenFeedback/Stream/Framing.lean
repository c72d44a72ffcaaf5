import TokenFeedback.IoError
import TokenFeedback.Log
import TokenFeedback.Record.Decoder

/-!
# Records of a stream that may end

A decoder with diagnostics, and what happens to it when the stream ends.

* `Decoder.next`: the next record, reported.
* `Decoder.finish`: the next record of a stream that has ended; when none is left, the remainder
  is dropped and reported, and the decoder is as new.
* `StreamError`: why a stream of records broke off.
-/

namespace TokenFeedback

/-- The report of a decoded record. -/
def Record.decodedEntry (r : Record) : LogEntry :=
  .event .trace "decoded expired token"
    [("token_len", .count r.token.length), ("expiration", .text r.expiration.display)]

namespace Decoder

/-- The report of a remainder that the end of the stream cuts off. -/
def cutOffEntry (d : Decoder) : LogEntry :=
  .event .debug "stream ended mid-record, discarding partial record"
    [("state", .text d.state.debugText), ("buffered", .count d.buffer.length)]

/-- The next record, and its report. -/
def next (d : Decoder) : Option Record × Decoder × List LogEntry :=
  match d.decode with
  | (some r, d') => (some r, d', [r.decodedEntry])
  | (none, d') => (none, d', [])

/-- The next record of a stream that has ended. When there is none, what remains is dropped. -/
def finish (d : Decoder) : Option Record × Decoder × List LogEntry :=
  match d.decode with
  | (some r, d') => (some r, d', [r.decodedEntry])
  | (none, d') => (none, fresh, if d'.hasRemainder then [d'.cutOffEntry] else [])

end Decoder

/-- Why a stream of records broke off. -/
inductive StreamError where
  | idleTimeout (after : Span)
  | io (error : IoError)
  deriving Repr, DecidableEq

namespace StreamError

/-- An error that reports a silence is an idle timeout, whatever its sort. -/
def ofIo (e : IoError) : StreamError :=
  match e.silent? with
  | some after => .idleTimeout after
  | none => .io e

def isIdle : StreamError → Bool
  | .idleTimeout _ => true
  | .io _ => false

def message : StreamError → String
  | .idleTimeout after => IoError.silence after
  | .io e => "IO error: " ++ e.text

end StreamError

end TokenFeedback
