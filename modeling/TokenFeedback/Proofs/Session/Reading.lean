import TokenFeedback.Proofs.Session.Course
import TokenFeedback.Proofs.Stream.Silence

/-!
# Sessions that read as soon as they can

A session that goes alone on the prompt schedule polls its reader as soon as that is worth it. So it
gets the items that are ahead of the reader, each when its time comes, tells of the records, and
winds up at the first item that is none.

* `Reader.Expects.le_last`: a reader is not polled later than one limit behind its last read.
* `Stage.course_to_item`: **a session gets to the first item that is ahead.**
* `Stage.course_of_records`: it has all records that are ahead when it closes its channel.
* `Stage.course_of_strange`, `Stage.course_of_streaming`, `Stage.course_of_closing`: the way to the
  stream, or to the failure of the handshake, and the way from the stream to the end.
-/

namespace TokenFeedback

/-- How a stream ends for a session whose reader hands out this last. -/
def endOf : StreamItem → StreamEnd
  | some (.error e) => if e.isIdle then .idleTimeout else .transportError
  | _ => .peerClosed

/-- A reader is not polled later than one limit behind the last read that is ahead. -/
theorem Reader.Expects.le_last {clock : Clock} {limit : Span} {now n : Nat} {r : Reader}
    {o : Outlook}
    (h : r.Expects clock (some limit) now n o) : now ≤ o.last + limit.ticks := by
  have hlast {seen : Bytes} {last : Nat} (since : last ≤ now) :=
    le_last_outlook (some limit) r.line.transport.staysOpen seen since (r.line.transport.ahead n)
  cases h with
  | reading _ _ _ _ _ since patient _ =>
    exact Nat.le_trans (patient limit rfl) (Nat.add_le_add_right (hlast since) _)
  | broken => exact Nat.le_add_right_of_le (hlast (Nat.le_refl now))
  | holding => exact Nat.le_add_right_of_le (hlast (Nat.le_refl now))

namespace Stage

variable {k : Connection} {clock : Clock} {limit : Span} {link : Link} {now n : Nat} {r : Reader}
  {b : Batch} {o : Outlook}

/-- A poll of a reader to which the item comes that is ahead first. -/
inductive Brings (clock : Clock) (limit : Span) (n time : Nat) (r : Reader) (o : Outlook) :
    StreamItem → Prop
  | item {x r' o' log m} (poll : r.poll time = (.ok (.ready x), r', log)) (le : n ≤ m)
      (first : o = o'.behind [(time, x)]) (left : r'.Expects clock (some limit) time m o') :
      Brings clock limit n time r o x
  | gaveUp {d r' log}
      (poll : r.poll time = (.ok (.ready (some (.error (.idleTimeout d)))), r', log))
      (alone : o.items = [(time, some (.error (.idleTimeout d)))]) :
      Brings clock limit n time r o (some (.error (.idleTimeout d)))

/-- **A session gets to the first item that is ahead of its reader**: it sleeps and is woken until
its reader has something. -/
theorem course_to_item (h : r.Expects clock (some limit) now (n + 1) o)
    (reach : clock.reaches o.last limit = true) (due : o.items ≠ []) (b : Batch) (link : Link) :
    ∃ time r' x, Course k now (.streaming r b link) [] time (.streaming r' b link) ∧
      Brings clock limit n time r' o x ∧ time ≤ o.last + limit.ticks := by
  -- every sleep but the last begins a wait of the script
  induction hk : r.line.transport.left using Nat.strongRecOn generalizing r now n with
  | ind left ih =>
    subst hk
    have hreach : ∀ d ∈ some limit, clock.reaches o.last d = true :=
      fun _ hd => (by cases hd; exact reach)
    have hpoll := Reader.poll_obtains h hreach
    rcases hout : r.poll now with ⟨answer, r', log⟩
    rw [hout] at hpoll
    have hsleeps {wake : Nat} (hanswer : answer = .ok .pending)
        (hwake : r'.line.wake now = some wake) :
        (streaming r b link).step k now link = .sleeps (some wake) log (.streaming r' b link) := by
      rw [step, read, hout, hanswer, ← hwake]
    cases hpoll with
    | item le first more left => exact ⟨now, r, _, .here, .item hout le first left, h.le_last⟩
    | gaveUp alone decoder => exact ⟨now, r, _, .here, .gaveUp hout alone, h.le_last⟩
    | sleeps wake later left fewer =>
      obtain ⟨time, r'', x, course, brings, hle⟩ := ih _ fewer left rfl
      exact ⟨time, r'', x, .sleeps (hsleeps rfl wake) rfl later course, brings, hle⟩
    | dozes limited wake later all left =>
      obtain rfl := Option.some.inj limited
      obtain ⟨r'', hgives, -⟩ := left.poll
      refine ⟨_, r', _, .sleeps (hsleeps rfl wake) rfl later .here, .gaveUp hgives ?_, ?_⟩
      · rw [← left.due, all]
        rfl
      · rw [← left.due, all]
        exact Nat.le_refl _
    | rests wake nothing => exact absurd nothing due

/-- A session winds up at the first item that is no record. -/
theorem winds_up {x : StreamItem} {r' : Reader} {log : List LogEntry}
    (poll : r.poll now = (.ok (.ready x), r', log)) (last : ∀ record, x ≠ some (.ok record)) :
    Course k now (.streaming r b link) [] now (.closing (link.shutdown.due now) b (endOf x)) := by
  have hmoves : ∃ log', (streaming r b link).step k now link =
      .moves none log' (.closing (link.shutdown.due now) b (endOf x)) := by
    rw [step, read, poll]
    rcases x with _ | e | record
    · exact ⟨_, rfl⟩
    · dsimp only
      rw [endOf]
      split
      · exact ⟨_, rfl⟩
      · exact ⟨_, rfl⟩
    · exact absurd rfl (last record)
  obtain ⟨log', step⟩ := hmoves
  exact .moves step (by rintro ⟨⟩) .here

/-- A session tells of a record and reads on. -/
theorem delivers {record : Record} {r' : Reader} {log : List LogEntry}
    (poll : r.poll now = (.ok (.ready (some (.ok record))), r', log)) :
    Course k now (.streaming r b link) [.token record] now
      (.streaming r' (b.push record) link) := by
  have hmoves : (streaming r b link).step k now link =
      .moves none log (.delivering r' b record link) := by
    rw [step, read, poll]
  have hdelivers : Course k now (.delivering r' b record link) [.token record] now
      (.streaming r' (b.push record) link) := by
    have step : (delivering r' b record link).step k now link =
        .moves (some (.token record)) [] (.streaming r' (b.push record) link) := rfl
    exact .moves step (by rintro ⟨⟩) .here
  exact .moves hmoves (by rintro ⟨⟩) hdelivers

/-- **A session tells of all records that are ahead of its reader, and closes its channel behind
them.** -/
theorem course_of_records {records : List Record} {x : StreamItem} {rest : List StreamItem}
    (h : r.Expects clock (some limit) now (n + 1) o) (reach : clock.reaches o.last limit = true)
    (items : o.items.map Prod.snd = handedOut records ++ x :: rest)
    (last : ∀ record, x ≠ some (.ok record)) (enough : records.length ≤ n) (b : Batch)
    (link : Link) :
    ∃ time, Course k now (.streaming r b link) (records.map .token) time
        (.closing (link.shutdown.due time) ⟨b.records ++ records⟩ (endOf x)) ∧
      time ≤ o.last + limit.ticks := by
  induction records generalizing r b now n o with
  | nil =>
    have hdue : o.items ≠ [] := by
      intro hnil
      rw [hnil] at items
      cases items
    obtain ⟨time, r', x', course, brings, hle⟩ := course_to_item h reach hdue b link
    refine ⟨time, ?_, hle⟩
    rw [List.append_nil]
    have hfirst : x' = x ∧ ∃ r'' log, r'.poll time = (.ok (.ready x'), r'', log) := by
      cases brings with
      | item poll _ first =>
        rw [first] at items
        exact ⟨(List.cons.inj items).1, _, _, poll⟩
      | gaveUp poll alone =>
        rw [alone] at items
        exact ⟨(List.cons.inj items).1, _, _, poll⟩
    obtain ⟨rfl, r'', log, poll⟩ := hfirst
    exact course.trans (winds_up poll last)
  | cons record records ih =>
    have hdue : o.items ≠ [] := by
      intro hnil
      rw [hnil] at items
      cases items
    obtain ⟨time, r', x', course, brings, -⟩ := course_to_item h reach hdue b link
    cases brings with
    | @item _ r'' o' log m poll le first left =>
      rw [first] at items
      obtain ⟨hx, hitems⟩ := List.cons.inj items
      dsimp only at hx
      subst hx
      rw [List.length_cons] at enough
      obtain ⟨m, rfl⟩ : ∃ m', m = m' + 1 := ⟨m - 1, by omega⟩
      have hlast : o.last = o'.last := by
        rw [first]
        rfl
      obtain ⟨time', course', hle⟩ :=
        ih left (hlast ▸ reach) hitems (by omega) (b.push record)
      refine ⟨time', ?_, hlast ▸ hle⟩
      rw [Batch.records_push, List.append_assoc] at course'
      exact course.trans ((delivers poll).trans course')
    | gaveUp poll alone =>
      rw [alone] at items
      cases (List.cons.inj items).1

end Stage

/-! ### Before the stream and behind it -/

namespace Stage

variable {k : Connection} {now : Nat}

/-- A session whose peer is reached at once sets out to shake hands. -/
theorem course_to_handshake {name : ServerName}
    (named : k.connector.serverName k.config.environment.host = .ok name)
    {link : Link} (reached : link.connect = .after 0 (.ok ())) :
    Course k now (.connecting (link.connect.due now) link) [.phase .handshaking] now
      (.handshaking (link.handshake.due now) link) := by
  have hconnects : (connecting (link.connect.due now) link).step k now link =
      .moves none [] (.connected link) := by
    rw [reached]
    exact if_pos (Nat.le_refl now)
  have hstarts : (connected link).step k now link =
      .moves (some (.phase .handshaking)) [Connector.handshakeStarted name]
        (.handshaking (link.handshake.due now) link) := by
    rw [step, named]
  exact .moves hconnects (by rintro ⟨⟩) (.moves hstarts (by rintro ⟨⟩) .here)

/-- A session that has failed says so, and returns. -/
theorem course_of_failing (link : Link) (e : SessionError) :
    Course k now (.failing e) [.phase .terminated, .failure e] now (.done (.error e)) := by
  have hterminates : (failing e).step k now link =
      .moves (some (.phase .terminated)) [] (.failed e) := rfl
  have hreturns : (failed e).step k now link = .moves (some (.failure e)) [] (.done (.error e)) :=
    rfl
  exact .moves hterminates (by rintro ⟨⟩) (.moves hreturns (by rintro ⟨⟩) .here)

/-- A session does not agree with a stranger. -/
theorem course_of_strange {name : ServerName}
    (named : k.connector.serverName k.config.environment.host = .ok name) (e : IoError) :
    Course k now (.connecting ((Link.strange e).connect.due now) (.strange e))
      [.phase .handshaking, .phase .terminated, .failure (.handshake (.handshakeFailed e))] now
      (.done (.error (.handshake (.handshakeFailed e)))) := by
  have hfails : (handshaking ((Link.strange e).handshake.due now) (.strange e)).step k now
      (.strange e) = .moves none [] (.failing (.handshake (.handshakeFailed e))) :=
    if_pos (Nat.le_refl now)
  exact (course_to_handshake named rfl).trans
    (.moves hfails (by rintro ⟨⟩) (course_of_failing (.strange e) _))

/-- A session has its stream as soon as its peer is reached. -/
theorem course_of_streaming {name : ServerName}
    (named : k.connector.serverName k.config.environment.host = .ok name) (t : Transport) :
    Course k now (.connecting ((Link.streaming t).connect.due now) (.streaming t))
      [.phase .handshaking, .phase .streaming] now (openStream k now (.streaming t)) := by
  have hshakes : (handshaking ((Link.streaming t).handshake.due now) (.streaming t)).step k now
      (.streaming t) = .moves none [Connector.handshakeDone] (.shaken (.streaming t)) :=
    if_pos (Nat.le_refl now)
  have hopens : (shaken (.streaming t)).step k now (.streaming t) =
      .moves (some (.phase .streaming)) [] (openStream k now (.streaming t)) := rfl
  exact (course_to_handshake named rfl).trans
    (.moves hshakes (by rintro ⟨⟩) (.moves hopens (by rintro ⟨⟩) .here))

/-- A session that closes its channel at once returns what it has. -/
theorem course_of_closing (link : Link) (b : Batch) (ending : StreamEnd) :
    Course k now (.closing (some (now, none)) b ending)
      [.phase .terminated, .streamEnd ending b.size] now (.done (.ok b.records)) := by
  have hcloses : (closing (some (now, none)) b ending).step k now link =
      .moves none [] (.closed b ending) :=
    if_pos (Nat.le_refl now)
  have hterminates : (closed b ending).step k now link =
      .moves (some (.phase .terminated)) [] (.ended b ending) := rfl
  have hreturns : (ended b ending).step k now link =
      .moves (some (.streamEnd ending b.size)) [] (.done (.ok b.records)) := rfl
  exact .moves hcloses (by rintro ⟨⟩)
    (.moves hterminates (by rintro ⟨⟩) (.moves hreturns (by rintro ⟨⟩) .here))

end Stage

end TokenFeedback
