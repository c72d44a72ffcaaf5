import TokenFeedback.Mock.Session

/-!
# The chunks of a scripted session

A scripted session is made of some bytes, and may then be cut into other chunks, sent with another
pause and ended in another way, as often as its author likes. None of this changes the bytes, no
chunk is ever empty, and only the last way to cut counts.

* `Remade`, `Remade.payload`, `Remade.chunks`: what can be made of a session has **its bytes, and no
  empty chunk.**
* `mem_innerCuts`, `innerCuts_ordered`: the cuts are the offsets inside, each behind the one before.
* `boundaries_splitAt`: the chunks meet at the cuts.
* `chunks_built_of_cut`: calls that do not cut leave the chunks of the last one that does.
* `built_chunks`: **the bytes stay, and the last cutting call settles the chunks.**
-/

namespace TokenFeedback

namespace MockSession

/-! ### The chunks of a session -/

/-- A session made of another one. -/
inductive Remade (first : MockSession) : MockSession → Prop
  | same : Remade first first
  | splitAt {session} (h : Remade first session) (offsets : List Nat) :
      Remade first (session.splitAt offsets)
  | oneByteAtATime {session} (h : Remade first session) : Remade first session.oneByteAtATime
  | withPause {session} (h : Remade first session) (pause : Span) :
      Remade first (session.withPause pause)
  | thenIdle {session} (h : Remade first session) : Remade first session.thenIdle
  | thenAbort {session} (h : Remade first session) : Remade first session.thenAbort

/-- Pieces make up what they were cut from. -/
theorem flatten_between (start : Nat) (payload : Bytes) (cuts : List Nat) :
    (between start payload cuts).flatten = payload := by
  induction cuts generalizing start payload with
  | nil =>
    rw [between]
    split
    · next h => exact (List.isEmpty_iff.1 h).symm
    · exact List.flatten_singleton
  | cons cut cuts ih => rw [between, List.flatten_cons, ih, List.take_append_drop]

/-- The cuts are inside a payload that begins at `start`, and each is behind the one before. -/
structure Fits (start : Nat) (payload : Bytes) (cuts : List Nat) : Prop where
  ordered : cuts.Pairwise (· < ·)
  inside : ∀ cut ∈ cuts, start < cut ∧ cut < start + payload.length

/-- What is left of the payload behind its first cut. -/
theorem Fits.tail {start cut : Nat} {payload : Bytes} {cuts : List Nat}
    (h : Fits start payload (cut :: cuts)) : Fits cut (payload.drop (cut - start)) cuts := by
  obtain ⟨hfirst, hordered⟩ := List.pairwise_cons.1 h.ordered
  obtain ⟨hlow, -⟩ := h.inside cut List.mem_cons_self
  refine ⟨hordered, fun later hlater => ⟨hfirst later hlater, ?_⟩⟩
  have hhigh := (h.inside later (List.mem_cons_of_mem _ hlater)).2
  rw [List.length_drop]
  omega

/-- No piece is empty if the cuts fit. -/
theorem ne_nil_of_mem_between {start : Nat} {payload : Bytes} {cuts : List Nat}
    (fits : Fits start payload cuts) : ∀ chunk ∈ between start payload cuts, chunk ≠ [] := by
  induction cuts generalizing start payload with
  | nil =>
    intro chunk hchunk
    rw [between] at hchunk
    split at hchunk
    · cases hchunk
    · next h =>
      rw [List.mem_singleton.1 hchunk]
      exact fun hnil => h (List.isEmpty_iff.2 hnil)
  | cons cut cuts ih =>
    obtain ⟨hlow, hhigh⟩ := fits.inside cut List.mem_cons_self
    intro chunk hchunk
    rw [between] at hchunk
    rcases List.mem_cons.1 hchunk with rfl | hchunk
    · rw [← List.length_pos_iff, List.length_take]
      omega
    · exact ih fits.tail chunk hchunk

/-- Of a list in order, the elements that are left when repeats are erased are each behind the one
before. `acc` are the elements so far, the last one first. -/
theorem pairwise_eraseReps_loop {x : Nat} {later acc : List Nat}
    (ordered : (x :: later).Pairwise (· ≤ ·)) (before : (x :: acc).Pairwise (· > ·)) :
    (List.eraseRepsBy.loop (· == ·) x later acc).Pairwise (· < ·) := by
  induction later generalizing x acc with
  | nil => exact List.pairwise_reverse.2 before
  | cons y later ih =>
    obtain ⟨hx, hlater⟩ := List.pairwise_cons.1 ordered
    rw [List.eraseRepsBy.loop]
    split
    · refine ih (List.pairwise_cons.2 ⟨fun z hz => ?_, (List.pairwise_cons.1 hlater).2⟩) before
      exact hx z (List.mem_cons_of_mem _ hz)
    · next h =>
      have hxy : x < y := by
        have hne : x ≠ y := by simpa using h
        have hle := hx y List.mem_cons_self
        omega
      refine ih hlater (List.pairwise_cons.2 ⟨fun z hz => ?_, before⟩)
      rcases List.mem_cons.1 hz with rfl | hz
      · exact hxy
      · exact Nat.lt_trans ((List.pairwise_cons.1 before).1 z hz) hxy

/-- Erasing repeats loses no element. -/
theorem mem_eraseReps_loop {x z : Nat} {later acc : List Nat} :
    z ∈ List.eraseRepsBy.loop (· == ·) x later acc ↔ z ∈ x :: later ∨ z ∈ acc := by
  induction later generalizing x acc with
  | nil =>
    rw [List.eraseRepsBy.loop, List.mem_reverse, List.mem_cons, List.mem_singleton]
  | cons y later ih =>
    rw [List.eraseRepsBy.loop]
    split
    · next h =>
      obtain rfl : x = y := beq_iff_eq.1 h
      rw [ih]
      simp only [List.mem_cons, or_self_left]
    · rw [ih]
      simp only [List.mem_cons]
      exact or_left_comm.trans or_assoc.symm

theorem mem_eraseReps {z : Nat} {offsets : List Nat} : z ∈ offsets.eraseReps ↔ z ∈ offsets := by
  cases offsets with
  | nil => exact Iff.rfl
  | cons x later => exact mem_eraseReps_loop.trans (or_iff_left List.not_mem_nil)

/-- **The inner cuts are the offsets inside.** -/
theorem mem_innerCuts {size cut : Nat} {offsets : List Nat} :
    cut ∈ innerCuts size offsets ↔ cut ∈ offsets ∧ 0 < cut ∧ cut < size := by
  rw [innerCuts, mem_eraseReps, (List.mergeSort_perm _ _).mem_iff, List.mem_filter,
    Bool.and_eq_true, decide_eq_true_eq, decide_eq_true_eq]

/-- **Each of the inner cuts is behind the one before.** -/
theorem innerCuts_ordered (size : Nat) (offsets : List Nat) :
    (innerCuts size offsets).Pairwise (· < ·) := by
  unfold innerCuts
  have hordered : ((offsets.filter fun o => 0 < o && o < size).mergeSort (· ≤ ·)).Pairwise
      (· ≤ ·) := by
    refine List.Pairwise.imp of_decide_eq_true (List.pairwise_mergeSort ?_ ?_ _)
    · intro a b c
      simp only [decide_eq_true_eq]
      omega
    · intro a b
      simp only [Bool.or_eq_true, decide_eq_true_eq]
      omega
  generalize (offsets.filter fun o => 0 < o && o < size).mergeSort (· ≤ ·) = sorted at *
  cases sorted with
  | nil => exact .nil
  | cons x later => exact pairwise_eraseReps_loop hordered (List.pairwise_singleton _ _)

theorem fits_innerCuts (payload : Bytes) (offsets : List Nat) :
    Fits 0 payload (innerCuts payload.length offsets) := by
  refine ⟨innerCuts_ordered _ _, fun cut hcut => ?_⟩
  rw [Nat.zero_add]
  exact (mem_innerCuts.1 hcut).2

namespace Remade

variable {first session : MockSession}

/-- **Whatever is made of a session, its bytes stay.** -/
theorem payload (h : Remade first session) : session.payload = first.payload := by
  induction h with
  | same => rfl
  | splitAt _ offsets ih =>
    rw [payload_eq_flatten]
    exact (flatten_between _ _ _).trans ih
  | @oneByteAtATime session _ ih =>
    have hsingle : (session.payload.map ([·])).flatten = session.payload := by
      rw [← List.flatMap_def, List.flatMap_singleton']
    rw [payload_eq_flatten]
    exact hsingle.trans ih
  | withPause _ _ ih => exact ih
  | thenIdle _ ih => exact ih
  | thenAbort _ ih => exact ih

/-- **No chunk is empty.** -/
theorem chunks (h : Remade first session) (whole : ∀ chunk ∈ first.chunks, chunk ≠ []) :
    ∀ chunk ∈ session.chunks, chunk ≠ [] := by
  induction h with
  | same => exact whole
  | @splitAt session _ offsets ih =>
    exact ne_nil_of_mem_between (fits_innerCuts session.payload offsets)
  | oneByteAtATime _ ih =>
    intro chunk hchunk
    obtain ⟨byte, -, rfl⟩ := List.mem_map.1 hchunk
    exact List.cons_ne_nil byte []
  | withPause _ _ ih => exact ih
  | thenIdle _ ih => exact ih
  | thenAbort _ ih => exact ih

end Remade

theorem payload_raw (bytes : Bytes) : (raw bytes).payload = bytes := by
  cases bytes with
  | nil => rfl
  | cons b bytes => rfl

theorem chunks_raw (bytes : Bytes) : ∀ chunk ∈ (raw bytes).chunks, chunk ≠ [] := by
  intro chunk hchunk
  cases bytes with
  | nil => cases hchunk
  | cons b bytes =>
    rw [List.mem_singleton.1 hchunk]
    exact List.cons_ne_nil b bytes

/-! ### Where chunks meet -/

/-- Where one chunk ends and the next begins, if the first one begins at `start`. -/
def boundaries (start : Nat) : List Bytes → List Nat
  | chunk :: next :: chunks =>
    (start + chunk.length) :: boundaries (start + chunk.length) (next :: chunks)
  | _ => []

/-- **The chunks meet at the cuts** if these fit. -/
theorem boundaries_between {start : Nat} {payload : Bytes} {cuts : List Nat}
    (fits : Fits start payload cuts) :
    boundaries start (between start payload cuts) = cuts := by
  induction cuts generalizing start payload with
  | nil =>
    rw [between]
    split <;> rfl
  | cons cut cuts ih =>
    obtain ⟨hlow, hhigh⟩ := fits.inside cut List.mem_cons_self
    have hends : start + (payload.take (cut - start)).length = cut := by
      rw [List.length_take]
      omega
    -- the bytes behind the cut make up at least one more chunk
    obtain ⟨next, chunks, hnext⟩ :
        ∃ next chunks, between cut (payload.drop (cut - start)) cuts = next :: chunks := by
      refine List.exists_cons_of_ne_nil fun hnone => ?_
      have hbytes := flatten_between cut (payload.drop (cut - start)) cuts
      rw [hnone, List.flatten_nil] at hbytes
      have hleft := congrArg List.length hbytes
      rw [List.length_nil, List.length_drop] at hleft
      omega
    have hmeet := ih fits.tail
    rw [hnext] at hmeet
    rw [between, hnext, boundaries, hends, hmeet]

/-- **The chunks of a session that is cut at offsets meet at those that are inside.** -/
theorem boundaries_splitAt (session : MockSession) (offsets : List Nat) :
    boundaries 0 (session.splitAt offsets).chunks = innerCuts session.payload.length offsets :=
  boundaries_between (fits_innerCuts session.payload offsets)

/-! ### Calls one after another -/

/-- What its author does with a session. -/
inductive Call where
  | splitAt (offsets : List Nat)
  | oneByteAtATime
  | withPause (pause : Span)
  | thenIdle
  | thenAbort

/-- Does this cut the session anew? -/
def Call.cuts : Call → Bool
  | .splitAt _ | .oneByteAtATime => true
  | .withPause _ | .thenIdle | .thenAbort => false

def call (session : MockSession) : Call → MockSession
  | .splitAt offsets => session.splitAt offsets
  | .oneByteAtATime => session.oneByteAtATime
  | .withPause pause => session.withPause pause
  | .thenIdle => session.thenIdle
  | .thenAbort => session.thenAbort

/-- The session after the calls. -/
def built (first : MockSession) (calls : List Call) : MockSession := calls.foldl call first

theorem Remade.call {first session : MockSession} (h : Remade first session) (c : Call) :
    Remade first (session.call c) := by
  cases c with
  | splitAt offsets => exact h.splitAt offsets
  | oneByteAtATime => exact h.oneByteAtATime
  | withPause pause => exact h.withPause pause
  | thenIdle => exact h.thenIdle
  | thenAbort => exact h.thenAbort

/-- Calls make nothing else of a session than what can be made of it. -/
theorem Remade.built {first session : MockSession} (h : Remade first session)
    (calls : List Call) : Remade first (session.built calls) := by
  induction calls generalizing session with
  | nil => exact h
  | cons c calls ih => exact ih (h.call c)

variable {session other : MockSession} {c : Call}

/-- A call that does not cut leaves the chunks. -/
theorem chunks_call (h : c.cuts = false) : (session.call c).chunks = session.chunks := by
  cases c with
  | splitAt offsets | oneByteAtATime => cases h
  | withPause pause => rfl
  | thenIdle => rfl
  | thenAbort => rfl

theorem chunks_built {calls : List Call} (h : ∀ c ∈ calls, c.cuts = false) :
    (session.built calls).chunks = session.chunks := by
  induction calls generalizing session with
  | nil => rfl
  | cons c calls ih =>
    rw [built, List.foldl_cons]
    exact (ih fun c' hc => h c' (List.mem_cons_of_mem c hc)).trans
      (chunks_call (h c List.mem_cons_self))

/-- A call that cuts sees nothing but the bytes. -/
theorem chunks_call_congr (h : c.cuts = true) (same : session.payload = other.payload) :
    (session.call c).chunks = (other.call c).chunks := by
  cases c with
  | splitAt offsets =>
    simp only [call, splitAt, same]
  | oneByteAtATime =>
    simp only [call, oneByteAtATime, same]
  | withPause _ | thenIdle | thenAbort => cases h

/-- **The last call that cuts settles the chunks**: they are as if it were the only call. -/
theorem chunks_built_of_cut (first : MockSession) (before : List Call) {after : List Call}
    (h : c.cuts = true) (rest : ∀ c ∈ after, c.cuts = false) :
    (first.built (before ++ c :: after)).chunks = (first.call c).chunks := by
  have hbytes : (first.built before).payload = first.payload := (Remade.same.built before).payload
  calc (first.built (before ++ c :: after)).chunks
      = (((first.built before).call c).built after).chunks := by
        rw [built, List.foldl_append, List.foldl_cons]
        rfl
    _ = ((first.built before).call c).chunks := chunks_built rest
    _ = (first.call c).chunks := chunks_call_congr h hbytes

/-- A session as it is made first, and its bytes. -/
inductive Made : Bytes → MockSession → Prop
  | empty : Made [] .empty
  | raw (bytes : Bytes) : Made bytes (.raw bytes)
  | ofRecords {records : List Record} {wire : Bytes} {session : MockSession}
      (encoded : encodeAll records = .ok wire) (made : ofRecords records = .ok session) :
      Made wire session

theorem Made.eq_raw {bytes : Bytes} (made : Made bytes session) : session = .raw bytes := by
  cases made with
  | empty => rfl
  | raw => rfl
  | ofRecords encoded made =>
    rw [MockSession.ofRecords, encoded] at made
    exact (Except.ok.inj made).symm

/-- **The bytes stay, and the last cutting call settles the chunks.**

Make a session of nothing, of some bytes or of the wire form of records, and then cut it, send it
one byte at a time, set its pause and its ending in any order and as often as you like. Its bytes
are what it was made of, its chunks make them up in order, and none of them is empty. Without a call
that cuts they are one chunk. With one, the chunks are as if the last one were the only call: if it
cuts at offsets, the chunks meet at exactly the offsets strictly inside, each once and in order, and
there are none if there are no bytes; if it sends one byte at a time, each chunk is one byte. -/
theorem built_chunks {bytes : Bytes} {first : MockSession} (made : Made bytes first)
    (calls : List Call) :
    (first.built calls).payload = bytes ∧
    (first.built calls).chunks.flatten = (first.built calls).payload ∧
    (∀ chunk ∈ (first.built calls).chunks, chunk ≠ []) ∧
    ((∀ c ∈ calls, c.cuts = false) →
      (first.built calls).chunks = if bytes = [] then [] else [bytes]) ∧
    ∀ (before after : List Call) (c : Call), calls = before ++ c :: after → c.cuts = true →
      (∀ c ∈ after, c.cuts = false) →
      (first.built calls).chunks = (first.call c).chunks ∧
      (∀ offsets, c = .splitAt offsets →
        (boundaries 0 (first.built calls).chunks).Pairwise (· < ·) ∧
        (∀ cut, cut ∈ boundaries 0 (first.built calls).chunks ↔
          cut ∈ offsets ∧ 0 < cut ∧ cut < bytes.length) ∧
        (bytes = [] → (first.built calls).chunks = [])) ∧
      (c = .oneByteAtATime → ∀ chunk ∈ (first.built calls).chunks, chunk.length = 1) := by
  obtain rfl := made.eq_raw
  have hremade : Remade (raw bytes) ((raw bytes).built calls) := Remade.same.built calls
  have hbytes : ((raw bytes).built calls).payload = bytes :=
    hremade.payload.trans (payload_raw bytes)
  have hwhole := hremade.chunks (chunks_raw bytes)
  refine ⟨hbytes, (payload_eq_flatten _).symm, hwhole, fun hnone => ?_,
    fun before after c hcalls hcut hrest => ?_⟩
  · rw [chunks_built hnone, raw]
    simp only [List.isEmpty_iff]
  · have hlast : ((raw bytes).built calls).chunks = ((raw bytes).call c).chunks :=
      hcalls ▸ chunks_built_of_cut (raw bytes) before hcut hrest
    refine ⟨hlast, fun offsets hc => ?_, fun hc => ?_⟩
    · have hmeet : boundaries 0 ((raw bytes).built calls).chunks =
          innerCuts bytes.length offsets := by
        have hcut := boundaries_splitAt (raw bytes) offsets
        rw [payload_raw] at hcut
        rw [hlast, hc]
        exact hcut
      rw [hmeet]
      refine ⟨innerCuts_ordered _ _, fun cut => mem_innerCuts, fun hempty => ?_⟩
      have hnil : ((raw bytes).built calls).chunks.flatten = [] :=
        (payload_eq_flatten _).symm.trans (hbytes.trans hempty)
      exact List.eq_nil_iff_forall_not_mem.2 fun chunk hchunk =>
        hwhole chunk hchunk (List.flatten_eq_nil_iff.1 hnil chunk hchunk)
    · rw [hlast, hc]
      intro chunk hchunk
      obtain ⟨byte, -, rfl⟩ := List.mem_map.1 hchunk
      rfl

/-- A record that is sent byte by byte, and then cut at offsets that are out of order, twice the
same, at both ends and far behind the end, before the session is told to stay. -/
theorem built_chunks_cut_anew :
    Made [0, 0, 0, 1, 0, 2, 171, 205] (.raw [0, 0, 0, 1, 0, 2, 171, 205]) ∧
      ((raw [0, 0, 0, 1, 0, 2, 171, 205]).built
        [.oneByteAtATime, .splitAt [6, 2, 0, 99, 2, 8], .thenIdle]).payload =
          [0, 0, 0, 1, 0, 2, 171, 205] ∧
      ∀ cut, cut ∈ boundaries 0 ((raw [0, 0, 0, 1, 0, 2, 171, 205]).built
          [.oneByteAtATime, .splitAt [6, 2, 0, 99, 2, 8], .thenIdle]).chunks ↔
        cut ∈ [6, 2, 0, 99, 2, 8] ∧ 0 < cut ∧ cut < 8 := by
  have made : Made [0, 0, 0, 1, 0, 2, 171, 205] (.raw [0, 0, 0, 1, 0, 2, 171, 205]) :=
    @Made.ofRecords [.ofWire [171, 205] 1] _ _ rfl rfl
  have h := built_chunks made [.oneByteAtATime, .splitAt [6, 2, 0, 99, 2, 8], .thenIdle]
  have hcut := h.2.2.2.2 [.oneByteAtATime] [.thenIdle] (.splitAt [6, 2, 0, 99, 2, 8]) rfl rfl
    fun c hc => List.mem_singleton.1 hc ▸ rfl
  exact ⟨made, h.1, (hcut.2.1 _ rfl).2.1⟩

end MockSession

end TokenFeedback
