import TokenFeedback.Stream.Transport

/-!
# Links

All that the far side does to one session: how long it takes to connect, to shake hands, what it
sends, and how long it takes to say good-bye.

* `Later`: something that takes its time, and perhaps does not come to pass.
* `Link.refused`: a peer that cannot be reached.
* `Link.lookedUp`: a peer whose address has to be looked up first.
-/

namespace TokenFeedback

/-- A value that is there after so many milliseconds, or never. -/
inductive Later (α : Type) where
  | after (ms : Nat) (value : α)
  | never
  deriving Repr, DecidableEq

/-- A value, and the time from which on it is there. -/
abbrev Due (α : Type) := Option (Nat × α)

/-- When a value is there that is waited for from now on. -/
def Later.due {α : Type} (now : Nat) : Later α → Due α
  | .after ms value => some (now + ms, value)
  | .never => none

/-- A value that is there so much later. -/
def Later.delayed {α : Type} (pause : Nat) : Later α → Later α
  | .after ms value => .after (pause + ms) value
  | .never => .never

/-- The far side of one session. -/
structure Link where
  connect : Later (Except IoError Unit)
  handshake : Later (Except IoError Unit)
  stream : Transport
  shutdown : Later (Option IoError)

namespace Link

/-- The same peer behind a look-up of its address, which somebody else does: it takes some time,
however short, and the session sleeps meanwhile. -/
def lookedUp (link : Link) : Link := { link with connect := link.connect.delayed 1 }

/-- A peer that cannot be reached: each attempt fails at once. -/
def refused (e : IoError) : Link :=
  ⟨.after 0 (.error e), .never, .ofEvents [] false, .after 0 none⟩

/-- A peer that is reached at once, but does not agree on the handshake. -/
def strange (e : IoError) : Link :=
  ⟨.after 0 (.ok ()), .after 0 (.error e), .ofEvents [] false, .after 0 none⟩

/-- A peer that is reached at once and sends what the transport has. -/
def streaming (t : Transport) : Link :=
  ⟨.after 0 (.ok ()), .after 0 (.ok ()), t, .after 0 none⟩

end Link

end TokenFeedback
