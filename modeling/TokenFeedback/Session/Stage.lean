import TokenFeedback.Session.Batch
import TokenFeedback.Session.Config
import TokenFeedback.Session.Link
import TokenFeedback.Session.Observer
import TokenFeedback.Stream.Reader
import TokenFeedback.Trust.Handshake

/-!
# Stages of a session

A session connects, shakes hands, reads records until the stream ends, and closes its transport.
It does so step by step: a step makes at most one notice to the observer, and what a step does
besides comes after the notice.

* `Stage`: how far a session has come.
* `Stage.step`: the next step.
* `Stage.usesLock`, `Stage.holdsTransport`: what a session has at a stage.

A session that fails before its stream begins has given up its transport and its lock before it
says so.
-/

namespace TokenFeedback

/-- What an observer breaks a session off with. -/
inductive Payload where
  | text (message : String)
  | other
  deriving Repr, DecidableEq

def Payload.message : Payload → String
  | .text message => message
  | .other => "unknown panic"

/-- How far a session has come. -/
inductive Stage where
  /-- Not begun. -/
  | fresh
  /-- Waits for the lock. -/
  | queued
  /-- Has the lock. -/
  | admitted
  | connecting (due : Due (Except IoError Unit)) (link : Link)
  | connected (link : Link)
  | handshaking (due : Due (Except IoError Unit)) (link : Link)
  /-- Has shaken hands. -/
  | shaken (link : Link)
  | streaming (reader : Reader) (batch : Batch) (link : Link)
  /-- Has a record that the observer does not know of. -/
  | delivering (reader : Reader) (batch : Batch) (record : Record) (link : Link)
  | closing (due : Due (Option IoError)) (batch : Batch) (ending : StreamEnd)
  /-- Has closed its transport. -/
  | closed (batch : Batch) (ending : StreamEnd)
  /-- Has told the observer that it terminated. -/
  | ended (batch : Batch) (ending : StreamEnd)
  /-- Has failed, and the observer does not know. -/
  | failing (e : SessionError)
  /-- Has failed and told the observer that it terminated. -/
  | failed (e : SessionError)
  | done (result : Except SessionError (List Record))
  | panicked (p : Payload)
  /-- Was given up by its owner. -/
  | dropped

namespace Stage

/-- Is there nothing more to come? -/
def isOver : Stage → Bool
  | done _ => true
  | panicked _ => true
  | dropped => true
  | _ => false

/-- Has the session the lock, or a place in its queue? -/
def usesLock : Stage → Bool
  | queued => true
  | admitted => true
  | connecting _ _ => true
  | connected _ => true
  | handshaking _ _ => true
  | shaken _ => true
  | streaming _ _ _ => true
  | delivering _ _ _ _ => true
  | closing _ _ _ => true
  | closed _ _ => true
  | ended _ _ => true
  | _ => false

/-- Has the session a transport, or is it about to get one? -/
def holdsTransport : Stage → Bool
  | connecting _ _ => true
  | connected _ => true
  | handshaking _ _ => true
  | shaken _ => true
  | streaming _ _ _ => true
  | delivering _ _ _ _ => true
  | closing _ _ _ => true
  | _ => false

/-- What comes of one step. -/
inductive Progress where
  /-- A notice, if any; then the entries and the next stage. -/
  | moves (notice : Option Callback) (log : List LogEntry) (next : Stage)
  /-- There is nothing to do before the given time, or for ever. -/
  | sleeps (wake : Option Nat) (log : List LogEntry) (stage : Stage)
  /-- The session breaks down. -/
  | breaks (message : String) (log : List LogEntry)

/-- Waits for a value until it is there. -/
def await {α : Type} (now : Nat) (due : Due α) (stage : Stage) (next : α → Progress) : Progress :=
  match due with
  | some (time, value) => if time ≤ now then next value else .sleeps (some time) [] stage
  | none => .sleeps none [] stage

def readFailedEntry (e : StreamError) : LogEntry :=
  .event .debug "feedback stream read failed" [("error", .text e.message)]

def discardEntry (d : Decoder) : LogEntry :=
  .event .debug "discarding incomplete record at end of session"
    [("buffered", .count d.buffer.length)]

def shutdownFailedEntry (e : IoError) : LogEntry :=
  .event .trace "TLS shutdown failed" [("error", .text e.text)]

/-- The stream is at its end: what is left of a record is reported, and the channel is closed. -/
def windUp (now : Nat) (r : Reader) (b : Batch) (link : Link) (ending : StreamEnd)
    (log : List LogEntry) : Progress :=
  .moves none (log ++ if r.decoder.hasRemainder then [discardEntry r.decoder] else [])
    (.closing (link.shutdown.due now) b ending)

/-- Reads on. -/
def read (now : Nat) (r : Reader) (b : Batch) (link : Link) : Progress :=
  match r.poll now with
  | (.error e, _, log) => .breaks e.message log
  | (.ok .pending, r', log) => .sleeps (r'.line.wake now) log (.streaming r' b link)
  | (.ok (.ready (some (.ok record))), r', log) => .moves none log (.delivering r' b record link)
  | (.ok (.ready none), r', log) => windUp now r' b link .peerClosed log
  | (.ok (.ready (some (.error e))), r', log) =>
    if e.isIdle then windUp now r' b link .idleTimeout log
    else windUp now r' b link .transportError (log ++ [readFailedEntry e])

/-- The stream of a session on a link, from now on. -/
def openStream (k : Connection) (now : Nat) (link : Link) : Stage :=
  let line := Line.limited link.stream now k.config.idle k.clock
  .streaming (.ofLine line Reader.standardRoom) .empty link

/-- The next step of a session that has the lock or needs it no more. `link` is what it meets if
it dials now. -/
def step (k : Connection) (now : Nat) (link : Link) : Stage → Progress
  | admitted =>
    .moves (some (.phase .connecting)) [] (.connecting (link.connect.due now) link)
  | connecting due link =>
    await now due (.connecting due link) fun
      | .ok _ => .moves none [] (.connected link)
      | .error e =>
        .moves none [] (.failing (.connect k.config.environment.address e))
  | connected link =>
    match k.connector.serverName k.config.environment.host with
    | .ok name =>
      .moves (some (.phase .handshaking)) [Connector.handshakeStarted name]
        (.handshaking (link.handshake.due now) link)
    | .error e => .moves none [] (.failing (.pipeline e.message))
  | handshaking due link =>
    await now due (.handshaking due link) fun
      | .ok _ => .moves none [Connector.handshakeDone] (.shaken link)
      | .error e => .moves none [] (.failing (.handshake (.handshakeFailed e)))
  | shaken link => .moves (some (.phase .streaming)) [] (openStream k now link)
  | streaming r b link => read now r b link
  | delivering r b record link =>
    .moves (some (.token record)) [] (.streaming r (b.push record) link)
  | closing due b ending =>
    await now due (.closing due b ending) fun e =>
      .moves none (e.toList.map shutdownFailedEntry) (.closed b ending)
  | closed b ending => .moves (some (.phase .terminated)) [] (.ended b ending)
  | ended b ending => .moves (some (.streamEnd ending b.size)) [] (.done (.ok b.records))
  | failing e => .moves (some (.phase .terminated)) [] (.failed e)
  | failed e => .moves (some (.failure e)) [] (.done (.error e))
  | stage => .sleeps none [] stage

end Stage

end TokenFeedback
