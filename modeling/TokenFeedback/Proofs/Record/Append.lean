import TokenFeedback.Proofs.Record.Parse

/-!
# Writing records into one buffer

Records are written one after another at the end of a buffer. Some have no wire form; the buffer
then has to be as if they had not been there, or all records behind them would be shifted.

* `Record.Fits`, `Record.encode_eq`: which records have a wire form.
* `Record.write_eq`: a writer appends the whole wire form, or gives up before the first field.
* `Record.appendTo_eq`: a call writes the whole wire form, or nothing.
* `Record.appendEach_eq`: the buffer after a run of calls, and what each call reported.
* `Record.encodeAll_eq`: a list has a wire form as far as its records have.
* `Record.appendEach_all_or_nothing`: **a run of calls leaves the records that fit, and a decoder
  gets back exactly those.**
-/

namespace TokenFeedback

/-- The point in nanoseconds since 1970. A leap second has no time of its own on this scale; it is
held at the end of the second before it. -/
def Timestamp.sinceEpoch (t : Timestamp) : Int := t.secs * 1000000000 + min t.nanos 999999999

/-- The seconds of a point are those since 1970, rounded down: also before 1970. -/
theorem Timestamp.secs_eq_floor (t : Timestamp) : t.secs = t.sinceEpoch / 1000000000 := by
  rw [sinceEpoch]
  omega

namespace Record

/-- A record fits on the wire if its token and its time to the second fit into their fields. -/
def Fits (r : Record) : Prop :=
  r.token.length ≤ 65535 ∧ 0 ≤ r.timestamp ∧ r.timestamp ≤ 4294967295

instance (r : Record) : Decidable r.Fits :=
  inferInstanceAs (Decidable (r.token.length ≤ 65535 ∧ 0 ≤ r.timestamp ∧ r.timestamp ≤ 4294967295))

/-- The wire form of a record that fits. -/
def wire (r : Record) : Bytes :=
  bigEndian 4 r.timestamp.toNat ++ bigEndian 2 r.token.length ++ r.token

/-- What is wrong with a record that does not fit: its token before its time. -/
def fault (r : Record) : EncodeError :=
  if r.token.length ≤ 65535 then .expirationOutOfRange r.timestamp
  else .tokenTooLong r.token.length

theorem length_wire (r : Record) : r.wire.length = r.encodedLength := by
  simp only [wire, List.length_append, length_bigEndian, encodedLength]

/-- **Which records have a wire form**, what it is, and why the others have none. -/
theorem encode_eq (r : Record) : r.encode = if r.Fits then .ok r.wire else .error r.fault := by
  by_cases hl : r.token.length ≤ 65535
  · have hlong : ¬ r.token.length > maxTokenLength := Nat.not_lt.2 hl
    by_cases ht : 0 ≤ r.timestamp ∧ r.timestamp ≤ 4294967295
    · have hfits : r.Fits := ⟨hl, ht⟩
      rw [encode, if_neg hlong, wireExpiration, if_pos (by omega), if_pos hfits]
      rfl
    · have hfits : ¬ r.Fits := fun h => ht h.2
      rw [encode, if_neg hlong, wireExpiration, if_neg (by omega), if_neg hfits, fault, if_pos hl]
      rfl
  · have hlong : r.token.length > maxTokenLength := Nat.not_le.1 hl
    have hfits : ¬ r.Fits := fun h => hl h.1
    rw [encode, if_pos hlong, if_neg hfits, fault, if_neg hl]
    rfl

/-- **A writer appends the whole wire form or gives up before the first field.** -/
theorem write_eq (r : Record) (buffer : Bytes) :
    r.write.run.run buffer =
      match r.encode with
      | .ok wire => (.ok (), buffer ++ wire)
      | .error e => (.error e, buffer) := by
  rw [write, encode]
  by_cases hl : r.token.length > maxTokenLength
  · rw [if_pos hl, if_pos hl]
    rfl
  · rw [if_neg hl, if_neg hl]
    rcases r.wireExpiration with e | secs
    · rfl
    · -- the three fields one behind the other
      have hfields : ((buffer ++ bigEndian 4 secs) ++ bigEndian 2 r.token.length) ++ r.token =
          buffer ++ (bigEndian 4 secs ++ bigEndian 2 r.token.length ++ r.token) := by
        simp only [List.append_assoc]
      exact congrArg (Prod.mk _) hfields

/-- What a call reports: nothing if the record fits, and otherwise what is wrong with it. -/
def report (r : Record) : Option EncodeError := if r.Fits then none else some r.fault

/-- The bytes that a call leaves in the buffer. -/
def written (r : Record) : Bytes := if r.Fits then r.wire else []

/-- **One call**: the whole wire form, or nothing at all. -/
theorem appendTo_eq (buffer : Bytes) (r : Record) :
    r.appendTo buffer = (buffer ++ r.written, r.report) := by
  rw [appendTo, write_eq, encode_eq, written, report]
  by_cases h : r.Fits
  · simp only [if_pos h]
  · simp only [if_neg h, List.append_nil]

end Record

/-- Records written one after another into a buffer: the buffer after the last one, and what each
call reported. -/
def appendEach (buffer : Bytes) : List Record → Bytes × List (Option EncodeError)
  | [] => (buffer, [])
  | r :: rs =>
    let (next, report) := r.appendTo buffer
    let (last, reports) := appendEach next rs
    (last, report :: reports)

/-- **A run of calls**, whatever was in the buffer. -/
theorem appendEach_eq (buffer : Bytes) (rs : List Record) :
    appendEach buffer rs = (buffer ++ rs.flatMap Record.written, rs.map Record.report) := by
  induction rs generalizing buffer with
  | nil => simp only [appendEach, List.flatMap_nil, List.append_nil, List.map_nil]
  | cons r rs ih =>
    simp only [appendEach, Record.appendTo_eq, ih, List.flatMap_cons, List.append_assoc,
      List.map_cons]

/-- What is left in a buffer are the wire forms of the records that fit. -/
theorem flatMap_written (rs : List Record) :
    rs.flatMap Record.written = (rs.filter (Record.Fits ·)).flatMap Record.wire := by
  induction rs with
  | nil => rfl
  | cons r rs ih =>
    rw [List.flatMap_cons, ih, Record.written]
    by_cases h : r.Fits
    · rw [if_pos h, List.filter_cons_of_pos (by simpa using h), List.flatMap_cons]
    · rw [if_neg h, List.filter_cons_of_neg (by simpa using h), List.nil_append]

/-- **A list has a wire form if all its records have**, and otherwise the fault of the first that
has none. -/
theorem encodeAll_eq (rs : List Record) :
    encodeAll rs =
      match (rs.map Record.report).findSome? id with
      | none => .ok (rs.flatMap Record.wire)
      | some e => .error e := by
  induction rs with
  | nil => rfl
  | cons r rs ih =>
    rw [encodeAll, Record.encode_eq, ih, List.map_cons, List.findSome?_cons, Record.report]
    by_cases h : r.Fits
    · simp only [if_pos h, id_eq]
      cases (rs.map Record.report).findSome? id with
      | none => rw [List.flatMap_cons]; rfl
      | some e => rfl
    · simp only [if_neg h, id_eq]
      rfl

/-- Nothing is reported exactly when all records fit. -/
theorem findSome_report_eq_none_iff (rs : List Record) :
    (rs.map Record.report).findSome? id = none ↔ ∀ r ∈ rs, r.Fits := by
  rw [List.findSome?_eq_none_iff]
  constructor
  · intro h r hr
    have hn : r.report = none := h _ (List.mem_map_of_mem hr)
    by_contra hf
    rw [Record.report, if_neg hf] at hn
    cases hn
  · intro h x hx
    obtain ⟨r, hr, rfl⟩ := List.mem_map.1 hx
    rw [Record.report, if_pos (h r hr)]
    rfl

/-- The wire form of records that all fit. -/
theorem encodeAll_of_fits {rs : List Record} (h : ∀ r ∈ rs, r.Fits) :
    encodeAll rs = .ok (rs.flatMap Record.wire) := by
  rw [encodeAll_eq, (findSome_report_eq_none_iff rs).2 h]

/-- A list has a wire form exactly when all its records fit, and it is what writing them one after
another leaves. -/
theorem encodeAll_eq_ok_iff (rs : List Record) (wire : Bytes) :
    encodeAll rs = .ok wire ↔ (∀ r ∈ rs, r.Fits) ∧ wire = (appendEach [] rs).1 := by
  have hleft (h : ∀ r ∈ rs, r.Fits) : (appendEach [] rs).1 = rs.flatMap Record.wire := by
    have hall : rs.filter (Record.Fits ·) = rs := List.filter_eq_self.2 (by simpa using h)
    rw [appendEach_eq, List.nil_append, flatMap_written, hall]
  constructor
  · intro h
    have hnone : (rs.map Record.report).findSome? id = none := by
      rcases hf : (rs.map Record.report).findSome? id with _ | e
      · rfl
      · rw [encodeAll_eq, hf] at h
        cases h
    have hfits := (findSome_report_eq_none_iff rs).1 hnone
    refine ⟨hfits, ?_⟩
    rw [encodeAll_of_fits hfits] at h
    rw [hleft hfits]
    exact (Except.ok.inj h).symm
  · rintro ⟨hfits, rfl⟩
    rw [encodeAll_of_fits hfits, hleft hfits]

/-- The error of a list is the first that writing its records one after another reports. -/
theorem encodeAll_eq_error_iff (rs : List Record) (e : EncodeError) :
    encodeAll rs = .error e ↔ (appendEach [] rs).2.findSome? id = some e := by
  rw [encodeAll_eq, appendEach_eq]
  rcases (rs.map Record.report).findSome? id with _ | e'
  · exact ⟨fun h => (by cases h), fun h => (by cases h)⟩
  · exact ⟨fun h => congrArg some (Except.error.inj h), fun h => congrArg _ (Option.some.inj h)⟩

/-- **Writing is all or nothing, record by record.** Write any records one after another into any
buffer.

A call succeeds exactly when its token has at most 65535 bytes and the seconds of its time, rounded
down, fit in 32 bits. It then appends as many bytes as the record says that it takes, which are its
wire form, and changes nothing before them. Otherwise it leaves the buffer as it was, and it reports
the length of the token if that is too long, whatever the time is, and else the seconds.

So in the end the buffer holds what it held first and the wire form of exactly the records whose
calls succeeded, and a decoder gets them back to the second, with nothing left over. The wire form
of a list as a whole is there exactly when all calls succeed, as what they write, and otherwise its
error is the first that they report. -/
theorem appendEach_all_or_nothing (start : Bytes) (rs : List Record) :
    (∀ front r back, rs = front ++ r :: back →
      r.timestamp = r.expiration.sinceEpoch / 1000000000 ∧
      ∃ report, (appendEach start rs).2[front.length]? = some report ∧
        (report = none ↔
          r.token.length ≤ 65535 ∧ 0 ≤ r.timestamp ∧ r.timestamp ≤ 4294967295) ∧
        (report = none → ∃ wire, r.encode = .ok wire ∧ wire.length = r.encodedLength ∧
          (appendEach start (front ++ [r])).1 = (appendEach start front).1 ++ wire) ∧
        (∀ e, report = some e →
          (appendEach start (front ++ [r])).1 = (appendEach start front).1 ∧
          e = if 65535 < r.token.length then .tokenTooLong r.token.length
            else .expirationOutOfRange r.timestamp)) ∧
    (∃ wire, (appendEach start rs).1 = start ++ wire ∧
      encodeAll (rs.filter (Record.Fits ·)) = .ok wire ∧
      (Decoder.fresh.feed wire).drain =
        ((rs.filter (Record.Fits ·)).map Record.toSecond, .fresh)) ∧
    (∀ wire, encodeAll rs = .ok wire ↔ (∀ r ∈ rs, r.Fits) ∧ wire = (appendEach [] rs).1) ∧
    (∀ e, encodeAll rs = .error e ↔ (appendEach [] rs).2.findSome? id = some e) := by
  refine ⟨?_, ?_, encodeAll_eq_ok_iff rs, encodeAll_eq_error_iff rs⟩
  · rintro front r back rfl
    have hat : (appendEach start (front ++ r :: back)).2[front.length]? = some r.report := by
      rw [appendEach_eq, List.map_append, List.map_cons]
      simp
    have hstep : (appendEach start (front ++ [r])).1 =
        (appendEach start front).1 ++ r.written := by
      simp only [appendEach_eq, List.flatMap_append, List.flatMap_singleton, List.append_assoc]
    refine ⟨r.expiration.secs_eq_floor, r.report, hat, ?_⟩
    rw [hstep, Record.report, Record.written]
    by_cases h : r.Fits
    · rw [if_pos h, if_pos h]
      refine ⟨⟨fun _ => h, fun _ => rfl⟩, fun _ => ⟨r.wire, ?_, r.length_wire, rfl⟩, ?_⟩
      · rw [Record.encode_eq, if_pos h]
      · intro e he
        cases he
    · rw [if_neg h, if_neg h, List.append_nil]
      refine ⟨⟨fun hn => ?_, fun hf => absurd hf h⟩, fun hn => ?_, fun e he => ⟨rfl, ?_⟩⟩
      · cases hn
      · cases hn
      · rw [← Option.some.inj he, Record.fault]
        by_cases hl : r.token.length ≤ 65535
        · rw [if_pos hl, if_neg (Nat.not_lt.2 hl)]
        · rw [if_neg hl, if_pos (Nat.not_le.1 hl)]
  · have hfits : ∀ r ∈ rs.filter (Record.Fits ·), r.Fits := by
      intro r hr
      simpa using (List.mem_filter.1 hr).2
    have hall := encodeAll_of_fits hfits
    have hdrain := Decoder.drain_encodeAll hall []
    rw [List.append_nil, Decoder.feed_nil, Decoder.drain_of_short Decoder.fresh_stalled,
      List.append_nil] at hdrain
    refine ⟨_, ?_, hall, hdrain⟩
    rw [appendEach_eq, flatMap_written]

/-- Half a second before 1970 is second -1, and the record behind it is where it would be alone. -/
example :
    appendEach [9] [⟨[7], ⟨-1, 500000000, by decide⟩⟩, ⟨[8], .ofWire 5⟩] =
      ([9, 0, 0, 0, 5, 0, 1, 8], [some (.expirationOutOfRange (-1)), none]) := by
  decide +kernel

end TokenFeedback
