import TokenFeedback.Proofs.Mock.Playback
import TokenFeedback.Proofs.Session.Story

/-!
# Delivery from end to end

Clients that call one after another, and that the stand-in for the service lets through, each get
what the server has for a call with their number, and nothing of any other call.

* `MockServer.Admits`: a client gets through to the server.
* `MockBehavior.Gives`: what a client gets that finds a behaviour.
* `MockServer.course`: **the course of a session that gets through.**
* `World.Answered`, `World.Answered.drain`: each call so far has got what was for it, and so does
  the next one.
* `World.drains_deliver`: **what the calls return that are made one after another.**
* `World.gives_up_within_tick`: a pause that is shorter than the limit, but not by a tick.
-/

namespace TokenFeedback

/-! ### One session -/

/-- **A client gets through to the server**: the server takes connections, is where the client looks
for it, and is trusted under the name that the client checks. -/
structure MockServer.Admits (server : MockServer) (k : Connection) : Prop where
  listens : server.listening = true
  address : k.config.environment = server.environment
  trusts : ∃ name version, k.connector.serverName k.config.environment.host = .ok name ∧
    k.connector.agree name (.server channel) = .ok version

namespace MockBehavior

/-- **What a client gets** that finds a behaviour and has this limit on silences, where the server
is late at the end of these pauses: what it returns, and what its observer is told. -/
inductive Gives (late : Nat → Bool) (limit : Span) :
    MockBehavior → Except SessionError (List Record) → List Callback → Prop
  | plain (e : IoError) :
      Gives late limit .plain (.error (.handshake (.handshakeFailed e)))
        [.phase .connecting, .phase .handshaking, .phase .terminated,
          .failure (.handshake (.handshakeFailed e))]
  | feedback (session : MockSession) :
      Gives late limit (.feedback session) (.ok (recordsOf (session.heard late limit)))
        (streamed (recordsOf (session.heard late limit)) ++
          [.phase .terminated,
            .streamEnd (session.endingFor late limit)
              (recordsOf (session.heard late limit)).length])

/-- No session that takes this limit on silences takes longer than this. -/
def lasts (limit : Span) : MockBehavior → Nat
  | .feedback session => session.chunks.length * (session.pause.ticks + 1) + limit.ticks
  | .plain => 0

end MockBehavior

namespace MockServer

variable {server : MockServer} {k : Connection}

/-- A client that gets through meets the server, and whatever behaviour comes next. -/
theorem Admits.network_eq (h : server.Admits k) (i : Nat) :
    server.network none k i = linkTo k (server.late i) (server.behavior i) := by
  have hlookup : server.environment.lookupFault? = none := by
    have hname : host.toList.contains '\x00' = false := by decide
    rw [Environment.lookupFault?, environment, hname]
    rfl
  have hliteral : server.environment.isLiteral = true := by
    have haddress : (Ipv4.ofText? host).isSome = true := by decide
    rw [Environment.isLiteral, environment, haddress]
    rfl
  rw [network, h.address, hlookup, hliteral, if_pos rfl]
  show server.link k i = linkTo k (server.late i) (server.behavior i)
  rw [link, h.listens, h.address, beq_self_eq_true]
  rfl

theorem Admits.linkTo_plain (h : server.Admits k) (late : Nat → Bool) :
    ∃ e, linkTo k late .plain = .strange e := by
  obtain ⟨name, -, named, -⟩ := h.trusts
  refine ⟨((k.connector.client name).faultOf plainReply).toIoError, ?_⟩
  delta linkTo
  rw [named]
  rfl

theorem Admits.linkTo_feedback (h : server.Admits k) (late : Nat → Bool) (session : MockSession) :
    linkTo k late (.feedback session) = .streaming (session.transport late) := by
  obtain ⟨name, version, named, agrees⟩ := h.trusts
  have hmet : (Except.ok name : Except TrustError ServerName).toOption.map
      (k.connector.agree · (peerOf (.feedback session))) = some (.ok version) :=
    congrArg some agrees
  delta linkTo
  rw [named, hmet]
  rfl

/-- A session that reads a scripted session has what there is to have of it. -/
theorem course_of_playback {now : Nat} {name : ServerName} {session : MockSession}
    (named : k.connector.serverName k.config.environment.host = .ok name)
    (whole : ∀ chunk ∈ session.chunks, chunk ≠ []) (late : Nat → Bool)
    (reach : k.clock.reaches (now + (MockBehavior.feedback session).lasts k.config.idle)
      k.config.idle = true) :
    let link := Link.streaming (session.transport late)
    let records := recordsOf (session.heard late k.config.idle)
    ∃ time, Stage.Course k now (.connecting (link.connect.due now) link)
        ([.phase .handshaking, .phase .streaming] ++ records.map .token ++
          [.phase .terminated, .streamEnd (session.endingFor late k.config.idle) records.length])
        time (.done (.ok records)) ∧
      time ≤ now + (MockBehavior.feedback session).lasts k.config.idle := by
  intro link records
  rw [MockBehavior.lasts] at reach ⊢
  obtain ⟨⟨x, rest, hitems, hx, hend⟩, hlast⟩ :=
    session.outlook_playback whole late k.config.idle now (records.length + 1)
  have hstart : k.clock.reaches now k.config.idle = true :=
    Clock.reaches_of_le reach (Nat.le_add_right _ _)
  have hexpects : (Reader.ofLine (.limited link.stream now k.config.idle k.clock)
      Reader.standardRoom).Expects k.clock (some k.config.idle) now (records.length + 1)
      (outlook (some k.config.idle) false [] now now
        ((session.transport late).ahead (records.length + 1))) :=
    Reader.expects_limited _ false Reader.standardRoom now (records.length + 1) hstart
  have hreach := Clock.reaches_of_le reach (Nat.le_trans hlast
    (Nat.add_le_add_left (Nat.le_add_right _ k.config.idle.ticks) now))
  obtain ⟨time, hreads, hle⟩ := Stage.course_of_records hexpects hreach hitems hx (Nat.le_refl _)
    .empty link
  rw [hend, show Batch.empty.records ++ records = records from List.nil_append records] at hreads
  refine ⟨time, ?_, ?_⟩
  · rw [List.append_assoc]
    exact (Stage.course_of_streaming named (session.transport late)).trans
      (hreads.trans (Stage.course_of_closing link ⟨records⟩ _))
  · rw [← Nat.add_assoc]
    exact Nat.le_trans hle (Nat.add_le_add_right hlast _)

/-- **The course of a session that gets through**, from its dial on. -/
theorem course {now : Nat} (admits : server.Admits k) (i : Nat)
    (whole : ∀ session, server.behavior i = .feedback session →
      ∀ chunk ∈ session.chunks, chunk ≠ [])
    (reach : k.clock.reaches (now + (server.behavior i).lasts k.config.idle)
      k.config.idle = true) :
    let link := server.network none k i
    ∃ told time result, Stage.Course k now (.connecting (link.connect.due now) link) told time
        (.done result) ∧
      (server.behavior i).Gives (server.late i) k.config.idle result (.phase .connecting :: told) ∧
      time ≤ now + (server.behavior i).lasts k.config.idle := by
  obtain ⟨name, -, named, -⟩ := admits.trusts
  rw [admits.network_eq]
  cases hbehavior : server.behavior i with
  | plain =>
    obtain ⟨e, hlink⟩ := admits.linkTo_plain (server.late i)
    rw [hlink]
    exact ⟨_, now, _, Stage.course_of_strange named e, .plain e, Nat.le_refl now⟩
  | feedback session =>
    rw [admits.linkTo_feedback]
    rw [hbehavior] at reach
    obtain ⟨time, hcourse, hle⟩ :=
      course_of_playback named (whole session hbehavior) (server.late i) reach
    exact ⟨_, time, _, hcourse, .feedback session, hle⟩

/-- What a connection finds is in the queue, or is what there is for when it is used up. -/
theorem behavior_mem (server : MockServer) (i : Nat) :
    server.behavior i ∈ server.fallback :: server.queue := by
  rw [behavior, List.getD_eq_getElem?_getD]
  cases hqueued : server.queue[i]? with
  | none => exact List.mem_cons_self
  | some b => exact List.mem_cons_of_mem _ (List.mem_of_getElem? hqueued)

end MockServer

namespace World

/-! ### One call after another -/

/-- A call that is made behind the ones before: after a pause, on this line. -/
structure Visit where
  pause : Nat
  line : Nat
  deriving Repr, DecidableEq

/-- A call that nobody can cancel, and what comes of it, or of so many actions of the prompt
schedule. -/
def drain (s : Setting) (bound : Nat) (w : World) (v : Visit) : World :=
  settle s bound ((w.act s (.wait v.pause)).act s (.begin v.line none))

/-- Calls that are made one after another. -/
def drains (s : Setting) (bound : Nat) (visits : List Visit) : World :=
  visits.foldl (drain s bound) start

/-- By then the calls are over, if each is made when the one before has returned. -/
def horizon (s : Setting) (server : MockServer) (visits : List Visit) : Nat :=
  (visits.zipIdx.map fun (v, i) =>
    v.pause + (server.behavior i).lasts (s.connection v.line).config.idle).sum

variable {s : Setting} {server : MockServer} {visits : List Visit} {w w' : World}

theorem horizon_concat (s : Setting) (server : MockServer) (visits : List Visit) (v : Visit) :
    horizon s server (visits ++ [v]) = horizon s server visits + (v.pause +
      (server.behavior visits.length).lasts (s.connection v.line).config.idle) := by
  rw [horizon, List.zipIdx_append, List.map_append, List.sum_append, List.zipIdx_singleton,
    Nat.zero_add, List.map_singleton, List.sum_singleton]
  rfl

/-- **Each call so far has got what the server has for a call with its number**, and nothing is
under way. -/
structure Answered (s : Setting) (server : MockServer) (visits : List Visit) (w : World) :
    Prop where
  rested : Rested s w
  quiet : w.next? = none
  asked : w.calls.length = visits.length
  dialled : w.dialled = visits.length
  noted : ∀ n ∈ w.notices, n.call < w.calls.length
  early : w.now ≤ horizon s server visits
  gives : ∀ i v, visits[i]? = some v → ∃ result, w.result? i = some result ∧
    (server.behavior i).Gives (server.late i) (s.connection v.line).config.idle result
      (w.callbacks i)

theorem answered_start (s : Setting) (server : MockServer) : Answered s server [] start :=
  ⟨rested_start s, rfl, rfl, rfl, fun _ h => absurd h List.not_mem_nil, Nat.le_refl 0,
    fun _ _ h => (by cases h)⟩

/-- A call has returned these records, and has told of them and of such an end of its stream. -/
def Delivers (w : World) (c : Nat) (records : List Record) (ending : StreamEnd) : Prop :=
  w.result? c = some (.ok records) ∧
    w.callbacks c = streamed records ++ [.phase .terminated, .streamEnd ending records.length]

/-- A call that finds a scripted session has what there is to have of it. -/
theorem Answered.delivers {i : Nat} {v : Visit} {session : MockSession}
    (h : Answered s server visits w) (visit : visits[i]? = some v)
    (found : server.behavior i = .feedback session) :
    w.Delivers i (recordsOf (session.heard (server.late i) (s.connection v.line).config.idle))
      (session.endingFor (server.late i) (s.connection v.line).config.idle) := by
  obtain ⟨result, hresult, hgives⟩ := h.gives i v visit
  rw [found] at hgives
  generalize htold : w.callbacks i = told at hgives
  cases hgives with
  | feedback => exact ⟨hresult, htold⟩

/-- A call that finds a peer that answers in plain text fails in the handshake. -/
theorem Answered.refuses {i : Nat} {v : Visit} (h : Answered s server visits w)
    (visit : visits[i]? = some v) (found : server.behavior i = .plain) :
    (∃ e, w.result? i = some (.error (.handshake e))) ∧ ∀ r, .token r ∉ w.callbacks i := by
  obtain ⟨result, hresult, hgives⟩ := h.gives i v visit
  rw [found] at hgives
  generalize w.callbacks i = told at hgives
  cases hgives with
  | plain e =>
    refine ⟨⟨_, hresult⟩, fun r hr => ?_⟩
    simp at hr

/-- **The next call gets what the server has for it**, and the calls before it keep what they
have. -/
theorem Answered.drain {v : Visit} (h : Answered s server visits w)
    (calm : ∀ earlier callback p, s.reaction earlier callback ≠ .panics p)
    (met : s.network visits.length = server.network none (s.connection v.line) visits.length)
    (admits : server.Admits (s.connection v.line))
    (whole : ∀ session, server.behavior visits.length = .feedback session →
      ∀ chunk ∈ session.chunks, chunk ≠ [])
    (reach : (s.connection v.line).clock.reaches (horizon s server (visits ++ [v]))
      (s.connection v.line).config.idle = true) :
    ∃ w', Answered s server (visits ++ [v]) w' ∧
      ∃ enough, ∀ bound, enough ≤ bound → w.drain s bound v = w' := by
  rw [horizon_concat] at reach
  have hearly := h.early
  -- the call dials, and meets what the server has for it
  obtain ⟨w₁, hleads₁, hsole₁, hnow₁, hdialled₁⟩ := (h.rested.begins v.pause v.line).begins calm
  have hbegun : (((w.act s (.wait v.pause)).act s (.begin v.line none)).now = w.now + v.pause) ∧
      ((w.act s (.wait v.pause)).act s (.begin v.line none)).dialled = w.dialled := ⟨rfl, rfl⟩
  rw [hbegun.1] at hnow₁ hsole₁
  rw [hbegun.2, h.dialled] at hdialled₁ hsole₁
  rw [met, List.nil_append] at hsole₁
  -- and goes its way
  have hreach := Clock.reaches_of_le reach (show w.now + v.pause + (server.behavior
    visits.length).lasts (s.connection v.line).config.idle ≤ _ by omega)
  obtain ⟨told, time, result, hcourse, hgives, hle⟩ :=
    MockServer.course admits visits.length whole hreach
  obtain ⟨w₂, hleads₂, hsole₂, hnow₂, hdialled₂⟩ := hsole₁.course hcourse calm hnow₁
  obtain ⟨hrested, hquiet⟩ := hsole₂.rested rfl
  obtain ⟨hresult, htold⟩ := hsole₂.answers h.noted
  have hlength : w₂.calls.length = w.calls.length + 1 := by
    rw [hsole₂.calls, List.length_append, List.length_singleton]
  refine ⟨w₂, ⟨hrested, hquiet, ?_, ?_, ?_, ?_, ?_⟩, (hleads₁.trans hleads₂).settles hquiet⟩
  · rw [hlength, h.asked, List.length_append, List.length_singleton]
  · rw [hdialled₂, hdialled₁, List.length_append, List.length_singleton]
  · intro n hn
    rw [hsole₂.notices] at hn
    rcases List.mem_append.1 hn with hn | hn
    · exact hlength ▸ Nat.lt_succ_of_lt (h.noted n hn)
    · obtain ⟨callback, -, rfl⟩ := List.mem_map.1 hn
      exact hlength ▸ Nat.lt_succ_self _
  · rw [horizon_concat]
    omega
  · intro i v' hv'
    rcases Nat.lt_or_ge i visits.length with lt | ge
    · rw [List.getElem?_append_left lt] at hv'
      obtain ⟨hsame, hsame'⟩ := hsole₂.keeps (h.asked ▸ lt)
      rw [hsame, hsame']
      exact h.gives i v' hv'
    · obtain rfl : i = visits.length := by
        have hlt := (List.getElem?_eq_some_iff.1 hv').1
        rw [List.length_append, List.length_singleton] at hlt
        omega
      rw [List.getElem?_concat_length] at hv'
      obtain rfl := Option.some.inj hv'
      rw [← h.asked, hresult, htold, h.asked]
      exact ⟨result, rfl, hgives⟩

/-- **All calls get what the server has for them**, and so many actions are enough for each. -/
theorem drains_answered (calm : ∀ earlier callback p, s.reaction earlier callback ≠ .panics p)
    (admits : ∀ v ∈ visits, server.Admits (s.connection v.line))
    (met : ∀ i v, visits[i]? = some v →
      s.network i = server.network none (s.connection v.line) i)
    (whole : ∀ session, .feedback session ∈ server.fallback :: server.queue →
      ∀ chunk ∈ session.chunks, chunk ≠ [])
    (reach : ∀ v ∈ visits, (s.connection v.line).clock.reaches (horizon s server visits)
      (s.connection v.line).config.idle = true) :
    ∃ w, Answered s server visits w ∧
      ∃ enough, ∀ bound, enough ≤ bound → drains s bound visits = w := by
  induction visits using List.reverseRecOn with
  | nil => exact ⟨start, answered_start s server, 0, fun _ _ => rfl⟩
  | append_singleton visits v ih =>
    have hlast : v ∈ visits ++ [v] := List.mem_append_right _ (List.mem_singleton_self v)
    have hwhole (session : MockSession)
        (h : server.behavior visits.length = .feedback session) : ∀ chunk ∈ session.chunks,
        chunk ≠ [] :=
      whole session (h ▸ server.behavior_mem visits.length)
    have hle : horizon s server visits ≤ horizon s server (visits ++ [v]) := by
      rw [horizon_concat]
      exact Nat.le_add_right _ _
    obtain ⟨w, hanswered, enough, hdrains⟩ := ih
      (fun v' hv' => admits v' (List.mem_append_left _ hv'))
      (fun i v' hv' => met i v' (by
        rw [List.getElem?_append_left (List.getElem?_eq_some_iff.1 hv').1, hv']))
      (fun v' hv' => Clock.reaches_of_le (reach v' (List.mem_append_left _ hv')) hle)
    obtain ⟨w', hanswered', enough', hdrain⟩ := hanswered.drain calm
      (met _ v List.getElem?_concat_length) (admits v hlast) hwhole (reach v hlast)
    refine ⟨w', hanswered', max enough enough', fun bound hbound => ?_⟩
    have hfirst := hdrains bound (Nat.le_trans (Nat.le_max_left _ _) hbound)
    rw [drains, List.foldl_append, List.foldl_cons, List.foldl_nil, ← drains, hfirst]
    exact hdrain bound (Nat.le_trans (Nat.le_max_right _ _) hbound)

/-- **Clients that call one after another get what is for them, from end to end.** The server has a
queue of behaviours and one for when the queue is used up, it may be late at the end of any pauses,
and all clients get through to it. The `i`-th call finds the `i`-th behaviour. It fails in the
handshake if the answer is plain text, and tells of no record. Of a scripted session it returns the
records that are in the chunks of it up to the first pause that is longer than the limit on
silences, and in nothing else, and gives up if there are more chunks.

If the session was made of records of whole seconds, however it was cut and ended, the call returns
those records if a pause between chunks has fewer ticks than the limit on silences, or there is no
pause. If a pause has more ticks it returns the records that are complete in the first chunk. Where
the ticks are as many, it hangs on the server being late. -/
theorem drains_deliver (s : Setting) (server : MockServer) (visits : List Visit)
    (calm : ∀ earlier callback p, s.reaction earlier callback ≠ .panics p)
    (admits : ∀ v ∈ visits, server.Admits (s.connection v.line))
    (met : ∀ i v, visits[i]? = some v →
      s.network i = server.network none (s.connection v.line) i)
    (made : ∀ session, .feedback session ∈ server.fallback :: server.queue →
      ∃ bytes, (MockSession.raw bytes).Remade session)
    (reach : ∀ v ∈ visits, (s.connection v.line).clock.reaches (horizon s server visits)
      (s.connection v.line).config.idle = true) :
    ∃ enough w, (∀ bound, enough ≤ bound → drains s bound visits = w) ∧ w.next? = none ∧
      w.calls.length = visits.length ∧ ∀ i v, visits[i]? = some v →
        let limit := (s.connection v.line).config.idle
        (server.queue.getD i server.fallback = .plain →
          (∃ e, w.result? i = some (.error (.handshake e))) ∧ ∀ r, .token r ∉ w.callbacks i) ∧
        ∀ session, server.queue.getD i server.fallback = .feedback session →
          (∃ n, w.Delivers i (recordsOf (session.chunks.take (n + 1)).flatten)
            (if n + 1 < session.chunks.length then .idleTimeout
              else session.ending.streamEnd) ∧
            (∀ m < n, MockSession.gap session.pause (server.late i m) ≤ limit.ticks) ∧
            (n + 1 < session.chunks.length →
              limit.ticks < MockSession.gap session.pause (server.late i n))) ∧
          ∀ records first, MockSession.ofRecords records = .ok first → first.Remade session →
            (∀ r ∈ records, r.expiration.nanos = 0) →
            (session.pause.ticks < limit.ticks ∨ session.chunks.length ≤ 1 →
              w.Delivers i records session.ending.streamEnd) ∧
            (limit.ticks < session.pause.ticks →
              ∃ j, IsGreatest {j | j ≤ records.length ∧
                  wireLength (records.take j) ≤ (session.chunks.headD []).length} j ∧
                w.Delivers i (records.take j)
                  (if 1 < session.chunks.length then .idleTimeout
                    else session.ending.streamEnd)) := by
  have hwhole (session : MockSession) (h : .feedback session ∈ server.fallback :: server.queue) :
      ∀ chunk ∈ session.chunks, chunk ≠ [] := by
    obtain ⟨bytes, hmade⟩ := made session h
    exact hmade.chunks (MockSession.chunks_raw bytes)
  obtain ⟨w, hanswered, enough, hdrains⟩ := drains_answered calm admits met hwhole reach
  refine ⟨enough, w, hdrains, hanswered.quiet, hanswered.asked, fun i v hv => ?_⟩
  intro limit
  refine ⟨hanswered.refuses hv, fun session found => ?_⟩
  have hdelivers := hanswered.delivers hv found
  constructor
  · obtain ⟨n, hheard, hending, hpauses⟩ := session.heard_eq_take (server.late i) limit
    rw [hheard, hending] at hdelivers
    exact ⟨n, hdelivers, hpauses⟩
  intro records first encoded remade seconds
  obtain ⟨hall, j, hgreatest, hfirst⟩ := remade.recordsOf_payload encoded seconds
  refine ⟨fun short => ?_, fun long => ⟨j, hgreatest, ?_⟩⟩
  · obtain ⟨hheard, hending⟩ := MockSession.heard_of_short (server.late i) short
    rw [hheard, hending, hall] at hdelivers
    exact hdelivers
  · obtain ⟨hheard, hending⟩ := MockSession.heard_of_long (server.late i) long
    rw [hheard, hending, hfirst] at hdelivers
    exact hdelivers

/-! ### A server with two records -/

/-- Two records. -/
def twoRecords : List Record := [⟨[7, 8], .ofWire 59⟩, ⟨[], .ofWire 60⟩]

/-- The two records in one chunk. -/
def inOneChunk : MockSession := .raw [0, 0, 0, 59, 0, 2, 7, 8, 0, 0, 0, 60, 0, 0]

/-- The two records, with a pause inside the header of the second one. -/
def inTwoChunks (pause : Span) : MockSession := (inOneChunk.splitAt [9]).withPause pause

/-- A server with two behaviours in its queue that is late at the end of every pause. -/
def standIn (pause : Span) : MockServer :=
  ⟨2196, [.feedback (inTwoChunks pause), .plain], .feedback (inTwoChunks .zero).thenAbort, .start,
    true, fun _ _ => true⟩

/-- A client of the server that trusts everyone, with this limit on silences. -/
def trusting (limit : Span) : Connection :=
  ⟨⟨⟨MockServer.host, 2196⟩, limit, MockServer.trust⟩, .prepared .anyone MockServer.trust, .young⟩

/-- All calls are of that client, and find the server. -/
def standInSetting (pause limit : Span) : Setting :=
  ⟨fun _ => trusting limit, (standIn pause).network none (trusting limit), Callback.entries,
    fun _ _ => .quiet⟩

theorem encoded_twoRecords : MockSession.ofRecords twoRecords = .ok inOneChunk := rfl

theorem remade_inTwoChunks (pause : Span) : inOneChunk.Remade (inTwoChunks pause) :=
  (MockSession.Remade.same.splitAt [9]).withPause pause

theorem remade_standIn {pause : Span} (session : MockSession)
    (h : .feedback session ∈ (standIn pause).fallback :: (standIn pause).queue) :
    inOneChunk.Remade session := by
  rcases List.mem_cons.1 h with h | h
  · obtain rfl := MockBehavior.feedback.inj h
    exact (remade_inTwoChunks .zero).thenAbort
  · rcases List.mem_cons.1 h with h | h
    · obtain rfl := MockBehavior.feedback.inj h
      exact remade_inTwoChunks pause
    · cases List.mem_singleton.1 h

theorem admits_trusting (pause limit : Span) : (standIn pause).Admits (trusting limit) := by
  refine ⟨rfl, rfl, .domain "localhost", .v13, ?_, rfl⟩
  have hname : (trusting limit).connector.config.nameFor (trusting limit).config.environment.host =
      "localhost" := rfl
  have hdomain : isDomainName "localhost".toList = true := by decide +kernel
  rw [Connector.serverName, hname, ServerName.ofText?, if_pos hdomain]

theorem met_standIn (pause limit : Span) (i line : Nat) :
    (standInSetting pause limit).network i =
      (standIn pause).network none ((standInSetting pause limit).connection line) i := by
  simp only [standInSetting]

/-- The chunks have nine bytes and five, and the records take eight and six. -/
theorem chunks_inTwoChunks (pause : Span) :
    (inTwoChunks pause).chunks = [[0, 0, 0, 59, 0, 2, 7, 8, 0], [0, 0, 60, 0, 0]] := by
  have hchunks : (inOneChunk.splitAt [9]).chunks =
      [[0, 0, 0, 59, 0, 2, 7, 8, 0], [0, 0, 60, 0, 0]] := by
    decide +kernel
  exact hchunks

/-- Three calls with a limit of one millisecond: for the first one the pause of two is too long, the
second one finds no peer that speaks the protocol, and the third one has no pause. -/
theorem drains_deliver_two_records :
    ∃ enough w, (∀ bound, enough ≤ bound →
        drains (standInSetting ⟨0, 2000000⟩ ⟨0, 1000000⟩) bound [⟨0, 0⟩, ⟨5, 1⟩, ⟨0, 0⟩] = w) ∧
      w.Delivers 0 (twoRecords.take 1) .idleTimeout ∧
      (∃ e, w.result? 1 = some (.error (.handshake e))) ∧
      w.Delivers 2 twoRecords .transportError := by
  have hreach : Clock.young.reaches (horizon (standInSetting ⟨0, 2000000⟩ ⟨0, 1000000⟩)
      (standIn ⟨0, 2000000⟩) [⟨0, 0⟩, ⟨5, 1⟩, ⟨0, 0⟩]) ⟨0, 1000000⟩ = true := by
    decide +kernel
  obtain ⟨enough, w, hdrains, -, -, hcalls⟩ :=
    drains_deliver (standInSetting ⟨0, 2000000⟩ ⟨0, 1000000⟩) (standIn ⟨0, 2000000⟩)
      [⟨0, 0⟩, ⟨5, 1⟩, ⟨0, 0⟩] (fun _ _ _ h => (by cases h)) (fun _ _ => admits_trusting _ _)
      (fun i v _ => met_standIn _ _ i v.line) (fun session h => ⟨_, remade_standIn session h⟩)
      (fun _ _ => hreach)
  obtain ⟨-, hfirst⟩ := hcalls 0 _ rfl
  obtain ⟨hsecond, -⟩ := hcalls 1 _ rfl
  obtain ⟨-, hthird⟩ := hcalls 2 _ rfl
  obtain ⟨-, hlong⟩ :=
    (hfirst _ rfl).2 twoRecords _ encoded_twoRecords (remade_inTwoChunks _) (by decide)
  obtain ⟨hshort, -⟩ := (hthird _ rfl).2 twoRecords _ encoded_twoRecords
    (remade_inTwoChunks .zero).thenAbort (by decide)
  obtain ⟨j, hgreatest, hdelivers⟩ := hlong (by decide)
  rw [chunks_inTwoChunks] at hgreatest hdelivers
  have hone : 1 ≤ j := hgreatest.2 (by decide)
  have htwo : j ≠ 2 := by
    rintro rfl
    exact absurd hgreatest.1.2 (by decide)
  obtain rfl : j = 1 := by
    have hle : j ≤ 2 := hgreatest.1.1
    omega
  exact ⟨enough, w, hdrains, hdelivers, (hsecond rfl).1, hshort (.inl (by decide))⟩

/-- **A pause that is shorter than the limit may end the stream**: both take two ticks, the client's
timer fires at the tick at which the pause ends, and the server has its turn behind it. The call
returns the record that is complete in the first chunk, and not the other one. -/
theorem gives_up_within_tick :
    (inTwoChunks ⟨0, 1000001⟩).pause.totalNanos < (⟨0, 1000002⟩ : Span).totalNanos ∧
      MockSession.ofRecords twoRecords = .ok inOneChunk ∧
      inOneChunk.Remade (inTwoChunks ⟨0, 1000001⟩) ∧
      ∃ enough w, (∀ bound, enough ≤ bound →
          drains (standInSetting ⟨0, 1000001⟩ ⟨0, 1000002⟩) bound [⟨0, 0⟩] = w) ∧
        w.Delivers 0 (twoRecords.take 1) .idleTimeout := by
  have hreach : Clock.young.reaches (horizon (standInSetting ⟨0, 1000001⟩ ⟨0, 1000002⟩)
      (standIn ⟨0, 1000001⟩) [⟨0, 0⟩]) ⟨0, 1000002⟩ = true := by
    decide +kernel
  have hwhole (session : MockSession) (h : .feedback session ∈
      (standIn ⟨0, 1000001⟩).fallback :: (standIn ⟨0, 1000001⟩).queue) :
      ∀ chunk ∈ session.chunks, chunk ≠ [] :=
    (remade_standIn session h).chunks (MockSession.chunks_raw _)
  obtain ⟨w, hanswered, enough, hdrains⟩ :=
    drains_answered (s := standInSetting ⟨0, 1000001⟩ ⟨0, 1000002⟩) (fun _ _ _ h => (by cases h))
      (fun _ _ => admits_trusting _ _) (fun i v _ => met_standIn _ _ i v.line) hwhole
      (fun _ _ => hreach)
  have hdelivers := hanswered.delivers (i := 0) rfl rfl
  have hheard : (inTwoChunks ⟨0, 1000001⟩).heard (fun _ => true) ⟨0, 1000002⟩ =
      [0, 0, 0, 59, 0, 2, 7, 8, 0] := by
    rw [MockSession.heard, chunks_inTwoChunks]
    decide +kernel
  have hending : (inTwoChunks ⟨0, 1000001⟩).endingFor (fun _ => true) ⟨0, 1000002⟩ =
      .idleTimeout := by
    rw [MockSession.endingFor, chunks_inTwoChunks]
    decide +kernel
  have hone : recordsOf [0, 0, 0, 59, 0, 2, 7, 8, 0] = twoRecords.take 1 := by
    decide +kernel
  refine ⟨by decide, encoded_twoRecords, remade_inTwoChunks _, enough, w, hdrains, ?_⟩
  rw [← hone, ← hheard, ← hending]
  exact hdelivers

end World

end TokenFeedback
