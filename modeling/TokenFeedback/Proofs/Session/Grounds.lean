import TokenFeedback.Proofs.Session.Alone

/-!
# Why sessions fail

A session fails for a reason: its peer was not reached, the name to check is none, or the peer did
not agree on the handshake. The name is looked at only behind the dial, so what is wrong with it
comes to light on those attempts that reach their peer.

* `Grounds`: why a session on a connection fails that meets a far side.
* `Stage.Founded`, `World.Turn.founded`: **a session that fails has its reason**, and one that goes
  on has none so far.
* `World.founded_of_return`: so it is for every call that returns, with the far side of its dial.
* `World.configuration_error_repeats`: two attempts on one connection.
-/

namespace TokenFeedback

/-- The session has reached its peer, and has a name to check. -/
structure Admits (k : Connection) (link : Link) : Prop where
  reached : ∃ ms, link.connect = .after ms (.ok ())
  named : ∃ name, k.connector.serverName k.config.environment.host = .ok name

/-- **Why a session on a connection fails** that meets this far side. -/
inductive Grounds (k : Connection) (link : Link) : SessionError → Prop
  | unreached {ms io} (refuses : link.connect = .after ms (.error io)) :
      Grounds k link (.connect k.config.environment.address io)
  /-- The name is none, and this was looked at behind the dial. -/
  | unnamed {ms e} (reached : link.connect = .after ms (.ok ()))
      (unnamed : k.connector.serverName k.config.environment.host = .error e) :
      Grounds k link (.pipeline e.message)
  | untrusted {cause} (admits : Admits k link) : Grounds k link (.handshake cause)
  | cancelled : Grounds k link .cancelled

namespace Stage

/-- What a session at a stage knows of the far side that it met, and of the name to check. -/
def Founded (k : Connection) (link : Link) : Stage → Prop
  | connecting due met => met = link ∧ ∃ since, due = link.connect.due since
  | connected _ => ∃ ms, link.connect = .after ms (.ok ())
  | handshaking _ _ => Admits k link
  | shaken _ => Admits k link
  | streaming _ _ _ => Admits k link
  | delivering _ _ _ _ => Admits k link
  | closing _ _ _ => Admits k link
  | closed _ _ => Admits k link
  | ended _ _ => Admits k link
  | failing e => Grounds k link e
  | failed e => Grounds k link e
  | done (.error e) => Grounds k link e
  | done (.ok _) => Admits k link
  | _ => True

/-- Whatever was waited for from some time on was to come after some time. -/
theorem eq_after_of_due {α : Type} {later : Later α} {since t : Nat} {a : α}
    (h : some (t, a) = later.due since) : ∃ ms, later = .after ms a := by
  cases later with
  | never => cases h
  | after ms value =>
    obtain ⟨-, rfl⟩ := Prod.mk.inj (Option.some.inj h)
    exact ⟨ms, rfl⟩

theorem read_founded {k : Connection} {link : Link} (admits : Admits k link) (now : Nat)
    (r : Reader) (b : Batch) (met : Link) : (read now r b met).next.Founded k link := by
  unfold read
  split
  · exact trivial
  · exact admits
  · exact admits
  · exact admits
  · split
    · exact admits
    · exact admits

/-- **A step that fails has its reason.** -/
theorem step_founded (k : Connection) (now : Nat) (link : Link) {stage : Stage}
    (h : stage.Founded k link) : (stage.step k now link).next.Founded k link := by
  cases stage with
  | admitted => exact ⟨rfl, now, rfl⟩
  | connecting due met =>
    refine await_next h fun t answer hdue _ => ?_
    obtain ⟨-, since, hsince⟩ := h
    obtain ⟨ms, hconnect⟩ := eq_after_of_due (hdue.symm.trans hsince)
    cases answer with
    | ok _ => exact ⟨ms, hconnect⟩
    | error io => exact .unreached hconnect
  | connected met =>
    obtain ⟨ms, hconnect⟩ := h
    rw [step]
    split
    · next name hname => exact ⟨⟨ms, hconnect⟩, name, hname⟩
    · next e hname => exact .unnamed hconnect hname
  | handshaking due met =>
    refine await_next h fun t answer _ _ => ?_
    cases answer with
    | ok _ => exact h
    | error io => exact .untrusted h
  | shaken met => exact h
  | streaming r b met => exact read_founded h now r b met
  | delivering r b record met => exact h
  | closing due b ending => exact await_next (P := Founded k link) h fun _ _ _ _ => h
  | closed b ending => exact h
  | ended b ending => exact h
  | failing e => exact h
  | failed e => exact h
  | fresh => exact h
  | queued => exact h
  | done result => exact h
  | panicked p => exact h
  | dropped => exact h

end Stage

namespace World

/-- A turn of a call whose dial meets this far side keeps to its reasons. -/
theorem Turn.founded {s : Setting} {link : Link} (only : ∀ n, s.network n = link) {w : World}
    {c : Nat} {a : Action} {call call' : Call} {told : List Callback} {entries : List LogEntry}
    (turn : Turn s w c call a call' told entries)
    (h : call.stage.Founded (s.connection call.line) link) :
    call'.stage.Founded (s.connection call'.line) link := by
  have hgoes := Stage.step_founded (s.connection call.line) w.now link h
  rw [turn.kept.1]
  obtain hstays | hnext | hasks | ⟨hcancelled, -⟩ | ⟨p, hbroken⟩ | ⟨hdropped, -⟩ :=
    turn.leads
  · exact hstays ▸ h
  · rw [hnext, only]
    exact hgoes
  · obtain hqueued | hadmitted := hasks
    · exact hqueued ▸ trivial
    · exact hadmitted ▸ trivial
  · exact hcancelled ▸ .cancelled
  · exact hbroken ▸ trivial
  · exact hdropped ▸ trivial

/-- **A call that returns fails for a reason or has none to fail**, in the far side that its dial
met. -/
theorem founded_of_return (s : Setting) (actions : List Action) {c : Nat} {call : Call}
    (has : (run s start actions).calls[c]? = some call)
    {result : Except SessionError (List Record)} (done : call.stage = .done result)
    (wanted : result ≠ .error .cancelled) :
    ∃ n, (dials s actions)[n]? = some c ∧
      (Stage.done result).Founded (s.connection call.line) (s.network n) := by
  obtain ⟨n, dialled, lone⟩ := lone_of_return s actions has done wanted
  refine ⟨n, dialled, ?_⟩
  -- alone the call meets this far side and no other
  have hsolo := run_calls (s := s.alone (s.network n))
    (P := fun _ call' _ => call'.stage.Founded (s.connection call'.line) (s.network n))
    (fun _ _ _ => trivial) (fun _ _ _ h => h) (alone s call.line c actions)
    (fun _ _ _ _ _ _ _ _ _ h turn =>
      turn.founded (s := s.alone (s.network n)) (fun _ => rfl) h)
    (alone s call.line c actions).length
  rw [List.take_length] at hsolo
  obtain ⟨awake, wake, hcall⟩ := lone.has
  exact hsolo.calls 0 _ hcall

/-- **A configuration error repeats on every attempt that reaches its peer.** Take two calls on one
connection, in one run or in two, with whatever far sides, observers and schedules. If one of them
returns a configuration error and the other returns and was not cancelled, then either the dial of
the other reached its peer, and it returns the same error; or its dial was refused, and it returns
that it could not connect. -/
theorem configuration_error_repeats (s s' : Setting) (actions actions' : List Action) {c c' : Nat}
    {call call' : Call} (has : (run s start actions).calls[c]? = some call)
    (has' : (run s' start actions').calls[c']? = some call')
    (same : s'.connection call'.line = s.connection call.line) {e : SessionError}
    (fails : call.stage = .done (.error e)) (configured : e.isConfiguration = true)
    {result : Except SessionError (List Record)} (returns : call'.stage = .done result)
    (wanted : result ≠ .error .cancelled) :
    ∃ n ms, (dials s' actions')[n]? = some c' ∧
      ((s'.network n).connect = .after ms (.ok ()) ∧ result = .error e ∨
        ∃ io, (s'.network n).connect = .after ms (.error io) ∧
          result = .error (.connect (s.connection call.line).config.environment.address io)) := by
  have hcalm : (Except.error e : Except SessionError (List Record)) ≠ .error .cancelled := by
    rintro ⟨⟩
    cases configured
  obtain ⟨m, -, hfails⟩ := founded_of_return s actions has fails hcalm
  obtain ⟨n, dialled, hreturns⟩ := founded_of_return s' actions' has' returns wanted
  rw [same] at hreturns
  -- a configuration error is one of the name
  obtain ⟨cause, hname, rfl⟩ : ∃ cause, (s.connection call.line).connector.serverName
      (s.connection call.line).config.environment.host = .error cause ∧
        e = .pipeline cause.message := by
    cases hfails with
    | unnamed _ unnamed => exact ⟨_, unnamed, rfl⟩
    | unreached => cases configured
    | untrusted => cases configured
    | cancelled => cases configured
  have hunnamed (admits : Admits (s.connection call.line) (s'.network n)) : False := by
    obtain ⟨name, hok⟩ := admits.named
    cases hok.symm.trans hname
  cases result with
  | ok records => exact (hunnamed hreturns).elim
  | error e' =>
    cases hreturns with
    | @unreached ms io refuses => exact ⟨n, ms, dialled, .inr ⟨io, refuses, rfl⟩⟩
    | @unnamed ms cause' reached unnamed =>
      obtain rfl := Except.error.inj (unnamed.symm.trans hname)
      exact ⟨n, ms, dialled, .inl ⟨reached, rfl⟩⟩
    | untrusted admits => exact (hunnamed admits).elim
    | cancelled => exact absurd rfl wanted

/-- A connection that checks its peers for a name that is none. -/
def misnamed : Connection :=
  ⟨.standard ⟨"127.0.0.1", 2196⟩,
    .prepared .anyone { TrustConfig.standard with serverName := some "not a hostname" }, .young⟩

/-- The first dial reaches a peer, and the later ones are refused. -/
def reachedOnce : Setting :=
  ⟨fun _ => misnamed,
    fun n => if n = 0 then .strange (.system 104) else .refused (.system 111),
    Callback.entries, fun _ _ => .quiet⟩

/-- Two calls, one behind the other. -/
def twoAttempts : List Action :=
  [.begin 0 none, .poll 0, .step 0, .step 0, .step 0, .step 0, .step 0, .step 0,
    .begin 0 none, .poll 1, .step 1, .step 1, .step 1, .step 1, .step 1]

/-- The first call fails for the name. The second has met its peer and fails for the name as well,
or was refused. -/
theorem configuration_error_repeats_misnamed :
    (run reachedOnce start twoAttempts).result? 0 =
        some (.error (.pipeline "invalid server name: not a hostname")) ∧
      ∃ result n ms, (run reachedOnce start twoAttempts).result? 1 = some result ∧
        (dials reachedOnce twoAttempts)[n]? = some 1 ∧
        ((reachedOnce.network n).connect = .after ms (.ok ()) ∧
            result = .error (.pipeline "invalid server name: not a hostname") ∨
          ∃ io, (reachedOnce.network n).connect = .after ms (.error io) ∧
            result = .error (.connect "127.0.0.1:2196" io)) := by
  have hfirst : (run reachedOnce start twoAttempts).calls[0]? = some _ := rfl
  have hsecond : (run reachedOnce start twoAttempts).calls[1]? = some _ := rfl
  obtain ⟨n, ms, dialled, h⟩ := configuration_error_repeats reachedOnce reachedOnce twoAttempts
    twoAttempts hfirst hsecond rfl rfl rfl rfl (fun h => (by cases h))
  exact ⟨rfl, _, n, ms, rfl, dialled, h⟩

/-- **A configuration error need not repeat**: the settings are accepted, neither call is cancelled
or breaks down, the first fails for the name, and the second for its dial. -/
theorem configuration_error_gives_way :
    misnamed.config.validate = .ok () ∧
      ((run reachedOnce start twoAttempts).calls.map Call.line) = [0, 0] ∧
      (run reachedOnce start twoAttempts).result? 0 =
        some (.error (.pipeline "invalid server name: not a hostname")) ∧
      (SessionError.pipeline "invalid server name: not a hostname").isConfiguration = true ∧
      (run reachedOnce start twoAttempts).result? 1 =
        some (.error (.connect "127.0.0.1:2196" (.system 111))) :=
  ⟨rfl, rfl, rfl, rfl, rfl⟩

end World

end TokenFeedback
