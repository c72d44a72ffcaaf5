import TokenFeedback.Mock.Server
import TokenFeedback.Proofs.Mock.Chunks
import TokenFeedback.Proofs.Record.Arrival
import TokenFeedback.Proofs.Session.Reading

/-!
# What a reader meets who reads a scripted session

A reader with a limit on silences has the chunks of a scripted session up to the first pause that is
longer, and then gives up. A pause of as many ticks as the limit is longer if the server is late.

* `MockSession.heard`, `MockSession.endingFor`: what a reader has of a session, and how the session
  ends for it.
* `MockSession.outlook_playback`: **what is ahead of a reader when the session begins.**
* `MockSession.heard_of_short`, `MockSession.heard_of_long`: what a reader has if the pauses take
  fewer ticks than the limit, or more.
* `MockSession.Remade.recordsOf_payload`: **the records of a session that was made of records.**
-/

namespace TokenFeedback

open Transport (Event)

/-! ### What is ahead of a reader -/

/-- How a session ends that is played to its end. -/
def MockEnding.streamEnd : MockEnding → StreamEnd
  | .close => .peerClosed
  | .idle => .idleTimeout
  | .abort => .transportError

/-- **Records, and then an end of the stream**: that is what is ahead, and the last read is
completed at time `time` or before. -/
structure Outlook.Plays (o : Outlook) (records : List Record) (ending : StreamEnd) (time : Nat) :
    Prop where
  items : ∃ x rest, o.items.map Prod.snd = handedOut records ++ x :: rest ∧
    (∀ r, x ≠ some (.ok r)) ∧ endOf x = ending
  last : o.last ≤ time

theorem Outlook.Plays.le {o : Outlook} {records : List Record} {ending : StreamEnd}
    {time time' : Nat} (h : o.Plays records ending time) (le : time ≤ time') :
    o.Plays records ending time' :=
  ⟨h.items, Nat.le_trans h.last le⟩

/-- Records in front of what is ahead. -/
theorem Outlook.Plays.behind {o : Outlook} {records : List Record} {ending : StreamEnd}
    {time : Nat} (h : o.Plays records ending time) (now : Nat) (first : List Record) :
    (o.behind (allAt now (handedOut first))).Plays (first ++ records) ending time := by
  obtain ⟨⟨x, rest, hitems, hx, hend⟩, hlast⟩ := h
  refine ⟨⟨x, rest, ?_, hx, hend⟩, hlast⟩
  rw [Outlook.behind, List.map_append, map_snd_allAt, hitems, handedOut_append, List.append_assoc]

namespace MockSession

/-- The chunks that a reader with this limit on silences waits for. -/
def heardChunks (pause limit : Span) (late : Nat → Bool) : List Bytes → List Bytes
  | [] => []
  | [chunk] => [chunk]
  | chunk :: chunks =>
    if limit.ticks < gap pause (late 0) then [chunk]
    else chunk :: heardChunks pause limit (fun n => late (n + 1)) chunks

/-- What a reader with this limit on silences has of the session. -/
def heard (session : MockSession) (late : Nat → Bool) (limit : Span) : Bytes :=
  (heardChunks session.pause limit late session.chunks).flatten

/-- How the session ends for a reader with this limit on silences. -/
def endingFor (session : MockSession) (late : Nat → Bool) (limit : Span) : StreamEnd :=
  if (heardChunks session.pause limit late session.chunks).length < session.chunks.length then
    .idleTimeout
  else session.ending.streamEnd

variable {pause limit : Span} {late : Nat → Bool}

theorem chunkEvents_cons (pause : Span) (late : Nat → Bool) (chunk next : Bytes)
    (chunks : List Bytes) :
    chunkEvents pause late (chunk :: next :: chunks) =
      .data chunk :: ((if pause.isZero then [] else [.wait (gap pause (late 0))]) ++
        chunkEvents pause (fun n => late (n + 1)) (next :: chunks)) :=
  rfl

theorem heardChunks_cons (pause limit : Span) (late : Nat → Bool) (chunk next : Bytes)
    (chunks : List Bytes) :
    heardChunks pause limit late (chunk :: next :: chunks) =
      if limit.ticks < gap pause (late 0) then [chunk]
      else chunk :: heardChunks pause limit (fun n => late (n + 1)) (next :: chunks) :=
  rfl

theorem ticks_of_isZero {pause : Span} (h : pause.isZero = true) : pause.ticks = 0 := by
  rw [Span.isZero, Bool.and_eq_true, beq_iff_eq, beq_iff_eq] at h
  rw [Span.ticks, Span.totalNanos, h.1, h.2]

theorem ticks_le_gap (pause : Span) (late : Bool) : pause.ticks ≤ gap pause late := by
  rw [gap]
  split
  · next hzero => exact Nat.le_of_eq (ticks_of_isZero hzero)
  · exact Nat.le_add_right _ _

theorem gap_le (pause : Span) (late : Bool) : gap pause late ≤ pause.ticks + 1 := by
  rw [gap]
  split
  · exact Nat.zero_le _
  · exact Nat.add_le_add_left (Bool.toNat_le late) _

/-- A pause that is not too long only takes time. -/
theorem outlook_pause {late : Bool} (short : gap pause late ≤ limit.ticks) (seen : Bytes)
    (now : Nat) (rest : List Event) :
    outlook (some limit) false seen now now
        ((if pause.isZero then [] else [.wait (gap pause late)]) ++ rest) =
      outlook (some limit) false seen now (now + gap pause late) rest := by
  split
  · next hzero => rw [gap, if_pos hzero, List.nil_append, Nat.add_zero]
  · exact outlook_wait ((patient_some limit _ _).2 (Nat.add_le_add_left short now)) false seen rest

/-- A reader gives up in a pause that is too long. -/
theorem outlook_pause_too_long {late : Bool} (long : limit.ticks < gap pause late) (seen : Bytes)
    (now : Nat) (rest : List Event) :
    outlook (some limit) false seen now now
        ((if pause.isZero then [] else [.wait (gap pause late)]) ++ rest) =
      givenUp (some limit) seen now := by
  have hwait : ¬ Patient (some limit) now (now + gap pause late) := by
    rw [patient_some]
    omega
  split
  · next hzero =>
    rw [gap, if_pos hzero] at long
    exact absurd long (Nat.not_lt_zero _)
  · exact outlook_wait_too_long hwait false seen rest

theorem plays_givenUp (limit : Span) (seen : Bytes) (now : Nat) :
    (givenUp (some limit) seen now).Plays [] .idleTimeout now :=
  ⟨⟨some (.error (.idleTimeout limit)), [], rfl, fun _ h => (by cases h), rfl⟩, Nat.le_refl now⟩

/-- Behind the end of a script nothing takes time. -/
theorem last_outlook_closes (idle : Option Span) (seen : Bytes) (now n : Nat) :
    (outlook idle false seen now now (Transport.closes false n)).last = now := by
  induction n generalizing seen with
  | zero => rfl
  | succ n ih => exact ih []

/-- What the end of a session is worth, at whatever time it comes. -/
theorem plays_ending (ending : MockEnding) (limit : Span) (seen : Bytes) (now n : Nat) :
    (outlook (some limit) false seen now now (ending.event :: Transport.closes false n)).Plays []
      ending.streamEnd now := by
  cases ending with
  | close =>
    exact ⟨⟨none, _, rfl, fun _ h => (by cases h), rfl⟩,
      Nat.le_of_eq (last_outlook_closes _ _ _ _)⟩
  | idle => exact plays_givenUp limit seen now
  | abort =>
    exact ⟨⟨some (.error (.ofIo goneWithoutGoodbye)), _, rfl, fun _ h => (by cases h), rfl⟩,
      Nat.le_of_eq (last_outlook_closes _ _ _ _)⟩

/-- **Chunks give the records of those that the reader waits for**, and then the reader gives up if
it does not wait for all of them. -/
theorem plays_chunks {chunk : Bytes} {chunks : List Bytes} (ending : MockEnding)
    (whole : ∀ c ∈ chunk :: chunks, c ≠ []) (late : Nat → Bool) (seen : Bytes) (last now n : Nat) :
    (outlook (some limit) false seen last now
        (chunkEvents pause late (chunk :: chunks) ++
          ending.event :: Transport.closes false n)).Plays
      (completed seen (heardChunks pause limit late (chunk :: chunks)).flatten)
      (if (heardChunks pause limit late (chunk :: chunks)).length < (chunk :: chunks).length then
        .idleTimeout else ending.streamEnd)
      (now + chunks.length * (pause.ticks + 1)) := by
  have hchunk : chunk ≠ [] := whole chunk List.mem_cons_self
  -- along the chunks; the reader has had something when each of them comes
  induction chunks generalizing chunk late seen last now with
  | nil =>
    have hend := (plays_ending ending limit (seen ++ chunk) now n).behind now
      (completed seen chunk)
    rw [List.append_nil] at hend
    show (outlook (some limit) false seen last now (.data chunk :: _)).Plays
      (completed seen [chunk].flatten) _ _
    rw [outlook_data _ _ hchunk, List.flatten_singleton]
    exact hend.le (Nat.le_add_right _ _)
  | cons next chunks ih =>
    rw [chunkEvents_cons, List.cons_append, outlook_data _ _ hchunk, heardChunks_cons,
      List.append_assoc]
    by_cases hlong : limit.ticks < gap pause (late 0)
    · have hgives := (plays_givenUp limit (seen ++ chunk) now).behind now (completed seen chunk)
      rw [List.append_nil] at hgives
      rw [outlook_pause_too_long hlong, if_pos hlong, List.flatten_singleton,
        if_pos (by simp)]
      exact hgives.le (Nat.le_add_right _ _)
    · have hnext := (ih (fun c hc => whole c (List.mem_cons_of_mem _ hc))
        (fun n => late (n + 1)) (seen ++ chunk) now (now + gap pause (late 0))
        (whole next (List.mem_cons_of_mem _ List.mem_cons_self))).behind now (completed seen chunk)
      have hgap := gap_le pause (late 0)
      have htime : now + gap pause (late 0) + chunks.length * (pause.ticks + 1) ≤
          now + (chunks.length + 1) * (pause.ticks + 1) := by
        rw [Nat.succ_mul]
        omega
      have hfewer (heard : List Bytes) : (chunk :: heard).length <
          (chunk :: next :: chunks).length ↔ heard.length < (next :: chunks).length :=
        Nat.succ_lt_succ_iff
      rw [outlook_pause (Nat.not_lt.1 hlong), if_neg hlong, List.flatten_cons, completed_append,
        if_congr (hfewer _) rfl rfl]
      exact hnext.le htime

/-- **What is ahead of a reader when a scripted session begins**: the records of what the reader has
of it, and then its end. -/
theorem outlook_playback {session : MockSession} (whole : ∀ chunk ∈ session.chunks, chunk ≠ [])
    (late : Nat → Bool) (limit : Span) (now n : Nat) :
    (outlook (some limit) false [] now now ((session.transport late).ahead n)).Plays
      (recordsOf (session.heard late limit)) (session.endingFor late limit)
      (now + session.chunks.length * (session.pause.ticks + 1)) := by
  have hscript : (session.transport late).ahead n =
      chunkEvents session.pause late session.chunks ++
        session.ending.event :: Transport.closes false n :=
    List.append_assoc _ _ _
  rw [hscript, heard, endingFor]
  cases hchunks : session.chunks with
  | nil =>
    have hend := plays_ending session.ending limit [] now n
    rw [← recordsOf_nil] at hend
    exact hend.le (Nat.le_add_right _ _)
  | cons chunk chunks =>
    rw [hchunks] at whole
    rw [← completed_nil]
    refine (plays_chunks session.ending whole late [] now now n).le (Nat.add_le_add_left ?_ now)
    exact Nat.mul_le_mul_right _ (Nat.le_succ _)

/-! ### What a reader has of a session -/

variable {session : MockSession}

/-- A reader has the chunks of a session up to the first pause that is longer than its limit, the
first chunk at least. -/
theorem heardChunks_eq_take (pause limit : Span) (late : Nat → Bool) (chunks : List Bytes) :
    ∃ n, heardChunks pause limit late chunks = chunks.take (n + 1) ∧
      (∀ m < n, gap pause (late m) ≤ limit.ticks) ∧
      (n + 1 < chunks.length → limit.ticks < gap pause (late n)) := by
  induction chunks generalizing late with
  | nil => exact ⟨0, rfl, fun _ h => absurd h (Nat.not_lt_zero _), fun h => by simp at h⟩
  | cons chunk chunks ih =>
    cases chunks with
    | nil => exact ⟨0, rfl, fun _ h => absurd h (Nat.not_lt_zero _), fun h => by simp at h⟩
    | cons next chunks =>
      rw [heardChunks_cons]
      by_cases hlong : limit.ticks < gap pause (late 0)
      · rw [if_pos hlong]
        exact ⟨0, rfl, fun _ h => absurd h (Nat.not_lt_zero _), fun _ => hlong⟩
      · obtain ⟨n, hn, hshort, hends⟩ := ih fun n => late (n + 1)
        rw [if_neg hlong]
        refine ⟨n + 1, congrArg (chunk :: ·) hn, fun m hm => ?_,
          fun h => hends (Nat.lt_of_succ_lt_succ h)⟩
        cases m with
        | zero => exact Nat.not_lt.1 hlong
        | succ m => exact hshort m (Nat.lt_of_succ_lt_succ hm)

/-- A pause of as many ticks as the limit is too long only if the server is late. -/
example (late : Bool) : heardChunks ⟨0, 2000000⟩ ⟨0, 1000001⟩ (fun _ => late) [[1], [2]] =
    if late then [[1]] else [[1], [2]] := by
  decide +revert

/-- **A reader has the bytes of the chunks up to the first pause that is longer than its limit**,
and gives up if there are more chunks. -/
theorem heard_eq_take (session : MockSession) (late : Nat → Bool) (limit : Span) :
    ∃ n, session.heard late limit = (session.chunks.take (n + 1)).flatten ∧
      session.endingFor late limit =
        (if n + 1 < session.chunks.length then .idleTimeout else session.ending.streamEnd) ∧
      (∀ m < n, gap session.pause (late m) ≤ limit.ticks) ∧
      (n + 1 < session.chunks.length → limit.ticks < gap session.pause (late n)) := by
  obtain ⟨n, hn, hshort, hends⟩ :=
    heardChunks_eq_take session.pause limit late session.chunks
  have hfew : (session.chunks.take (n + 1)).length < session.chunks.length ↔
      n + 1 < session.chunks.length := by
    rw [List.length_take]
    omega
  refine ⟨n, by rw [heard, hn], ?_, hshort, hends⟩
  rw [endingFor, hn]
  exact if_congr hfew rfl rfl

/-- A reader has all bytes of a session if its limit has more ticks than the pause, or there is no
pause. -/
theorem heard_of_short (late : Nat → Bool)
    (short : session.pause.ticks < limit.ticks ∨ session.chunks.length ≤ 1) :
    session.heard late limit = session.payload ∧
      session.endingFor late limit = session.ending.streamEnd := by
  obtain ⟨n, hheard, hending, -, hends⟩ := session.heard_eq_take late limit
  have hall : ¬ n + 1 < session.chunks.length := by
    intro hmore
    have hgap := gap_le session.pause (late n)
    have hlong := hends hmore
    omega
  rw [hheard, hending, if_neg hall, List.take_of_length_le (Nat.not_lt.1 hall),
    payload_eq_flatten]
  exact ⟨rfl, rfl⟩

/-- A reader has the first chunk of a session if its limit has fewer ticks than the pause. -/
theorem heard_of_long (late : Nat → Bool) (long : limit.ticks < session.pause.ticks) :
    session.heard late limit = session.chunks.headD [] ∧ session.endingFor late limit =
      if 1 < session.chunks.length then .idleTimeout else session.ending.streamEnd := by
  obtain ⟨n, hheard, hending, hshort, -⟩ := session.heard_eq_take late limit
  obtain rfl : n = 0 := by
    by_contra hne
    have hwaits := hshort 0 (Nat.pos_of_ne_zero hne)
    have hgap := ticks_le_gap session.pause (late 0)
    omega
  rw [hheard, hending]
  refine ⟨?_, rfl⟩
  cases session.chunks with
  | nil => rfl
  | cons chunk chunks => exact List.flatten_singleton

theorem headD_isPrefix (session : MockSession) : session.chunks.headD [] <+: session.payload := by
  rw [payload_eq_flatten]
  cases session.chunks with
  | nil => exact List.nil_prefix
  | cons chunk chunks => exact List.prefix_append _ _

/-- **The records of a session that was made of records**: all of them are in its bytes, and in its
first chunk are those that fit into it. -/
theorem Remade.recordsOf_payload {records : List Record} {first : MockSession}
    (made : first.Remade session) (encoded : ofRecords records = .ok first)
    (seconds : ∀ r ∈ records, r.expiration.nanos = 0) :
    recordsOf session.payload = records ∧
      ∃ j, IsGreatest {j | j ≤ records.length ∧
          wireLength (records.take j) ≤ (session.chunks.headD []).length} j ∧
        recordsOf (session.chunks.headD []) = records.take j := by
  have hwhole (part : List Record) (h : ∀ r ∈ part, r ∈ records) :
      part.map Record.toSecond = part :=
    (List.map_congr_left fun r hr => r.toSecond_eq_self_iff.2 (seconds r (h r hr))).trans
      (List.map_id part)
  obtain ⟨wire, hwire, rfl⟩ : ∃ wire, encodeAll records = .ok wire ∧ raw wire = first := by
    rw [ofRecords] at encoded
    cases hall : encodeAll records with
    | error e =>
      rw [hall] at encoded
      cases encoded
    | ok wire =>
      rw [hall] at encoded
      exact ⟨wire, rfl, Except.ok.inj encoded⟩
  have hpayload : session.payload = wire := made.payload.trans (payload_raw wire)
  constructor
  · have hdrain := Decoder.drain_encodeAll hwire []
    rw [List.append_nil] at hdrain
    rw [hpayload, recordsOf, hdrain, Decoder.feed_nil,
      Decoder.drain_of_short Decoder.fresh_stalled, List.append_nil]
    exact hwhole records fun _ h => h
  · obtain ⟨j, hgreatest, hdrain⟩ :=
      Decoder.drain_take (k := (session.chunks.headD []).length) hwire
    have hchunk : wire.take (session.chunks.headD []).length = session.chunks.headD [] := by
      rw [← hpayload]
      exact (List.prefix_iff_eq_take.1 session.headD_isPrefix).symm
    rw [hchunk, hwhole _ fun _ h => List.mem_of_mem_take h] at hdrain
    exact ⟨j, hgreatest, hdrain⟩

end MockSession

end TokenFeedback
