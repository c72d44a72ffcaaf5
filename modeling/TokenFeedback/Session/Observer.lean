import TokenFeedback.Log
import TokenFeedback.Record
import TokenFeedback.Session.Error

/-!
# Observers

Who runs a session may watch it. A session tells its observer when it enters a phase, decodes a
record, comes to the end of its stream or fails; it does not say which session it is.

* `Callback`: one notice.
* `Callback.entries`: the notice as the standard observer reports it.
* `drainSpan`: the entry that opens the report of a session.
* `peakInFlight`: the most sessions that were under way at once, as far as the notices tell.
* `Moment`: a notice to wait for.
-/

namespace TokenFeedback

/-- One notice to the observer of a session. -/
inductive Callback where
  | phase (p : Phase)
  | token (r : Record)
  | streamEnd (e : StreamEnd) (tokens : Nat)
  | failure (e : SessionError)
  deriving DecidableEq

/-- The report of a session that was cancelled. -/
def cancelledEntry : LogEntry := .event .debug "feedback session cancelled" []

namespace Callback

/-- The notice as the standard observer reports it. -/
def entries : Callback → List LogEntry
  | .phase p => [.event .debug "feedback session phase" [("apns.feedback.phase", .text p.name)]]
  | .token r =>
    [.event .trace "expired token received"
      [("token", .text r.tokenHex), ("expiration", .text r.expiration.display)]]
  | .streamEnd e n =>
    [.event .debug "feedback stream ended"
      [("apns.feedback.stream_end", .text e.name), ("apns.feedback.tokens", .count n)]]
  | .failure e =>
    if e.isCancelled then [cancelledEntry]
    else [.event .warn "feedback session failed" [("error", .text e.message)]]

def isToken : Callback → Bool
  | .token _ => true
  | _ => false

end Callback

/-- Opens the report of a session. -/
def drainSpan (host : String) (portNumber : Nat) : LogEntry :=
  .span .info "apns.feedback.drain"
    [("server.address", .text host), ("server.port", .count portNumber)]

/-- The sessions under way after a notice, and the most there ever were. -/
def countInFlight (now peak : Nat) : Callback → Nat × Nat
  | .phase .connecting => (now + 1, max peak (now + 1))
  | .phase .terminated => (now - 1, peak)
  | _ => (now, peak)

/-- The most sessions that were under way at once: one begins when it connects, and one ends when
one has terminated. -/
def peakInFlight (notices : List Callback) : Nat :=
  (notices.foldl (fun (now, peak) c => countInFlight now peak c) (0, 0)).2

/-- A notice to wait for. -/
inductive Moment where
  | phase (p : Phase)
  | streamEnd
  /-- The record with this number, counted from one. -/
  | token (number : Nat)
  deriving Repr, DecidableEq

/-- Is a notice the one that is waited for, behind the earlier ones? -/
def Moment.isAt (m : Moment) (earlier : List Callback) (c : Callback) : Bool :=
  match m, c with
  | .phase p, .phase q => p == q
  | .streamEnd, .streamEnd _ _ => true
  | .token n, .token _ => (earlier.filter Callback.isToken).length + 1 == n
  | _, _ => false

end TokenFeedback
